import EventRecorder.Aggregate.Registry

/-!
# The timers over another tally

The timers need no more of a tally than its answers.  Over two tallies that answer alike the
registries start, stop and split the same timers, and the tallies stay related.
-/

namespace EventRecorder

open Theory

variable {κ κ' : Type*} {ops : AggregateTally κ} {ops' : AggregateTally κ'} {R : κ → κ' → Prop}

/-! ## 1. Tallies that answer alike -/

/-- Both have stored the counter, or both report the same error. -/
def StoredAlike (R : κ → κ' → Prop) :
    Except EmerSqliteError κ → Except EmerSqliteError κ' → Prop
  | .ok tally, .ok tally' => R tally tally'
  | .error error, .error error' => error = error'
  | _, _ => False

/-- What has to be shown of the operations. -/
structure TallySimulation (ops : AggregateTally κ) (ops' : AggregateTally κ')
    (R : κ → κ' → Prop) : Prop where
  storeEvent : ∀ {tally tally'} (increment : TallyIncrement), R tally tally' →
    StoredAlike R (ops.storeEvent tally increment) (ops'.storeEvent tally' increment)
  iter : ∀ {tally tally'} (tallyType : EmerTallyType) (datetime : GDateTime), R tally tally' →
    R (ops.iter tally tallyType datetime) (ops'.iter tally' tallyType datetime)
  clear : ∀ {tally tally'}, R tally tally' → R (ops.clear tally) (ops'.clear tally')

namespace TallySimulation

variable {tally : κ} {tally' : κ'} (h : TallySimulation ops ops' R)

include h

theorem store (hR : R tally tally') (timerImpl : EmerAggregateTimerImpl)
    (tallyType : EmerTallyType) (date : GDateTime) (mono : Int) :
    R (((timerImpl.store ops tallyType date mono tally).toOption).getD tally)
      (((timerImpl.store ops' tallyType date mono tally').toOption).getD tally') := by
  have hstored := h.storeEvent (timerImpl.increment tallyType date mono) hR
  unfold EmerAggregateTimerImpl.store
  cases hleft : ops.storeEvent tally (timerImpl.increment tallyType date mono) with
  | error error =>
    cases hright : ops'.storeEvent tally' (timerImpl.increment tallyType date mono) with
    | error error' => exact hR
    | ok stored' =>
      rw [hleft, hright] at hstored
      exact hstored.elim
  | ok stored =>
    cases hright : ops'.storeEvent tally' (timerImpl.increment tallyType date mono) with
    | error error' =>
      rw [hleft, hright] at hstored
      exact hstored.elim
    | ok stored' =>
      rw [hleft, hright] at hstored
      exact hstored

/-- A stop stores both counters over both tallies, or fails at the same one. -/
theorem stop (hR : R tally tally') (timerImpl : EmerAggregateTimerImpl) (now : GDateTime)
    (mono : Int) :
    R (timerImpl.stop ops now mono tally).2 (timerImpl.stop ops' now mono tally').2 := by
  have hdaily := h.storeEvent (timerImpl.increment .dailyEvents now mono) hR
  unfold EmerAggregateTimerImpl.stop
  generalize ops.storeEvent tally (timerImpl.increment .dailyEvents now mono) = daily at hdaily ⊢
  generalize ops'.storeEvent tally' (timerImpl.increment .dailyEvents now mono) = daily'
    at hdaily ⊢
  match daily, daily', hdaily with
  | .error _, .error _, _ => exact hR
  -- the monthly counter is stored over what the daily one has left
  | .ok daily, .ok daily', hdaily =>
    have hmonthly := h.storeEvent (timerImpl.increment .monthlyEvents now mono) hdaily
    dsimp only
    generalize ops.storeEvent daily (timerImpl.increment .monthlyEvents now mono) = monthly
      at hmonthly ⊢
    generalize ops'.storeEvent daily' (timerImpl.increment .monthlyEvents now mono) = monthly'
      at hmonthly ⊢
    match monthly, monthly', hmonthly with
    -- a daily counter that was stored before the failure stays
    | .error _, .error _, _ => exact hdaily
    | .ok _, .ok _, hmonthly => exact hmonthly

theorem tallyAfterStops (hR : R tally tally') (now : GDateTime) (mono : Int)
    (timers : List EmerAggregateTimerImpl) :
    R (TimerRegistry.tallyAfterStops ops now mono timers tally)
      (TimerRegistry.tallyAfterStops ops' now mono timers tally') := by
  induction timers generalizing tally tally' with
  | nil => exact hR
  | cons timerImpl timers ih => exact ih (h.stop hR timerImpl now mono)

theorem tallyAfterSave (hR : R tally tally') (tallyType : EmerTallyType) (date : GDateTime)
    (mono : Int) (timers : List EmerAggregateTimerImpl) :
    R (TimerRegistry.tallyAfterSave ops tallyType date mono timers tally)
      (TimerRegistry.tallyAfterSave ops' tallyType date mono timers tally') := by
  induction timers generalizing tally tally' with
  | nil => exact hR
  | cons timerImpl timers ih => exact ih (h.store hR timerImpl tallyType date mono)

end TallySimulation

/-! ## 2. Registries over them -/

namespace TimerRegistry

variable {registry next : TimerRegistry κ} {registry' : TimerRegistry κ'}

/-- The registry with another tally in the place of its own. -/
def withTally (self : TimerRegistry κ) (tally : κ') : TimerRegistry κ' where
  recordingEnabled := self.recordingEnabled
  aggregateTimers := self.aggregateTimers
  monitoredSenders := self.monitoredSenders
  nextTimerId := self.nextTimerId
  currentAggregateTallyDate := self.currentAggregateTallyDate
  aggregateTally := tally

/-- The same registry over related tallies. -/
def OverTally (R : κ → κ' → Prop) (registry : TimerRegistry κ) (registry' : TimerRegistry κ') :
    Prop :=
  ∃ tally', R registry.aggregateTally tally' ∧ registry' = registry.withTally tally'

theorem startAggregateTimer_withTally (self : TimerRegistry κ) (tally' : κ')
    (sha1 : Bytes → Text → Bytes) (call : StartAggregateTimer) :
    (self.withTally tally').startAggregateTimer sha1 call =
      (self.startAggregateTimer sha1 call).map fun started =>
        (started.1, started.2.withTally tally') := by
  unfold startAggregateTimer
  show (if (!self.recordingEnabled) = true then _ else _) = _
  split
  · rfl
  split
  · rfl
  split
  · rfl
  · rfl

theorem aggregateTally_startAggregateTimer {sha1 : Bytes → Text → Bytes}
    {call : StartAggregateTimer} {path : String}
    (hstart : registry.startAggregateTimer sha1 call = .ok (path, next)) :
    next.aggregateTally = registry.aggregateTally := by
  obtain ⟨_, -, -, -, -, -, -, -, hsame⟩ := startAggregateTimer_eq hstart
  exact hsame

namespace OverTally

variable (h : TallySimulation ops ops' R) (hr : OverTally R registry registry')

include h hr

theorem stopTimerImpl (timerImpl : EmerAggregateTimerImpl) (now : GDateTime) (mono : Int) :
    OverTally R (registry.stopTimerImpl ops timerImpl now mono)
      (registry'.stopTimerImpl ops' timerImpl now mono) := by
  obtain ⟨tally', hR, rfl⟩ := hr
  exact ⟨_, h.stop hR timerImpl now mono, rfl⟩

theorem onTimerStoppedCb {timerImpl : EmerAggregateTimerImpl} {now : GDateTime} {mono : Int}
    (hnext : registry.onTimerStoppedCb ops timerImpl now mono = some next) :
    ∃ next', registry'.onTimerStoppedCb ops' timerImpl now mono = some next' ∧
      OverTally R next next' := by
  obtain ⟨tally', hR, rfl⟩ := hr
  have hsenders : (registry.withTally tally').monitoredSenders = registry.monitoredSenders := rfl
  unfold TimerRegistry.onTimerStoppedCb at hnext ⊢
  rw [hsenders]
  cases hsender : registry.monitoredSenders timerImpl.senderName with
  | none =>
    rw [hsender] at hnext
    cases hnext
  | some senderData =>
    rw [hsender] at hnext
    cases hnext
    exact ⟨_, rfl, _, h.stop hR timerImpl now mono, rfl⟩

/-- The loop finds the same timers. -/
theorem stopTimers {now : GDateTime} {mono : Int} {timerIds : List Nat}
    (hnext : TimerRegistry.stopTimers ops now mono timerIds registry = some next) :
    ∃ next', TimerRegistry.stopTimers ops' now mono timerIds registry' = some next' ∧
      OverTally R next next' := by
  -- induction on the sender's timers: each stop leads to another pair of registries
  induction timerIds generalizing registry registry' with
  | nil =>
    cases hnext
    exact ⟨registry', rfl, hr⟩
  | cons timerId timerIds ih =>
    have hfound : registry'.findTimer timerId = registry.findTimer timerId := by
      obtain ⟨tally', -, rfl⟩ := hr
      rfl
    rw [TimerRegistry.stopTimers] at hnext ⊢
    rw [hfound]
    cases hfind : registry.findTimer timerId with
    | none =>
      rw [hfind] at hnext
      cases hnext
    | some timerImpl =>
      rw [hfind] at hnext
      have hstopped : OverTally R
          ((registry.stopTimerImpl ops timerImpl now mono).removeTimer timerId)
          ((registry'.stopTimerImpl ops' timerImpl now mono).removeTimer timerId) := by
        obtain ⟨tally', hR, heq⟩ := hr.stopTimerImpl h timerImpl now mono
        exact ⟨tally', hR, by rw [heq]; rfl⟩
      exact ih hstopped hnext

theorem senderNameVanishedCb {senderName : Text} {now : GDateTime} {mono : Int}
    (hnext : registry.senderNameVanishedCb ops senderName now mono = some next) :
    ∃ next', registry'.senderNameVanishedCb ops' senderName now mono = some next' ∧
      OverTally R next next' := by
  have hsenders : registry'.monitoredSenders = registry.monitoredSenders := by
    obtain ⟨tally', -, rfl⟩ := hr
    rfl
  unfold TimerRegistry.senderNameVanishedCb at hnext ⊢
  rw [hsenders]
  cases hsender : registry.monitoredSenders senderName with
  | none =>
    rw [hsender] at hnext
    cases hnext
  | some senderData =>
    rw [hsender] at hnext
    obtain ⟨stopped, hstopped, rfl⟩ := Option.map_eq_some_iff.mp hnext
    obtain ⟨stopped', hstopped', tally', hR, rfl⟩ := hr.stopTimers h hstopped
    dsimp only
    rw [hstopped']
    exact ⟨_, rfl, tally', hR, rfl⟩

theorem clockTickedMidnightCb (mono : Int) (now rescheduled : GDateTime) :
    OverTally R (registry.clockTickedMidnightCb ops mono now rescheduled)
      (registry'.clockTickedMidnightCb ops' mono now rescheduled) := by
  obtain ⟨tally', hR, rfl⟩ := hr
  rw [clockTickedMidnightCb_eq, clockTickedMidnightCb_eq]
  refine ⟨_, ?_, rfl⟩
  -- the monthly sweep, if it is due, follows the daily one
  have hdaily := h.iter .dailyEvents registry.currentAggregateTallyDate
    (h.tallyAfterSave hR .dailyEvents registry.currentAggregateTallyDate mono
      registry.aggregateTimers)
  dsimp only
  show R _ (if monthChanged now registry.currentAggregateTallyDate = true then _ else _)
  split
  · exact h.iter .monthlyEvents registry.currentAggregateTallyDate
      (h.tallyAfterSave hdaily .monthlyEvents registry.currentAggregateTallyDate mono
        registry.aggregateTimers)
  · exact hdaily

theorem onPermissionsChanged (daemonEnabled : Bool) :
    OverTally R (registry.onPermissionsChanged ops daemonEnabled)
      (registry'.onPermissionsChanged ops' daemonEnabled) := by
  obtain ⟨tally', hR, rfl⟩ := hr
  cases daemonEnabled with
  | true => exact ⟨tally', hR, rfl⟩
  | false => exact ⟨_, h.clear hR, rfl⟩

theorem shutdown (now : GDateTime) (mono : Int) :
    OverTally R (registry.shutdown ops now mono) (registry'.shutdown ops' now mono) := by
  obtain ⟨tally', hR, rfl⟩ := hr
  rw [shutdown_eq, shutdown_eq]
  exact ⟨_, h.tallyAfterStops hR now mono registry.aggregateTimers, rfl⟩

/-- **Step lemma.** -/
theorem handleTimerEvent {sha1 : Bytes → Text → Bytes} {event : TimerEvent}
    (hnext : EventRecorder.handleTimerEvent ops sha1 registry event = some next) :
    ∃ next', EventRecorder.handleTimerEvent ops' sha1 registry' event = some next' ∧
      OverTally R next next' := by
  cases event with
  | startAggregateTimer call =>
    obtain ⟨tally', hR, rfl⟩ := hr
    rw [EventRecorder.handleTimerEvent] at hnext ⊢
    rw [startAggregateTimer_withTally]
    cases hstart : registry.startAggregateTimer sha1 call with
    | error error =>
      rw [hstart] at hnext
      cases hnext
      exact ⟨_, rfl, tally', hR, rfl⟩
    | ok started =>
      have hsame := aggregateTally_startAggregateTimer hstart
      rw [hstart] at hnext
      cases hnext
      rw [← hsame] at hR
      exact ⟨_, rfl, tally', hR, rfl⟩
  | stopTimer timerId now mono =>
    have hfound : registry'.findTimer timerId = registry.findTimer timerId := by
      obtain ⟨tally', -, rfl⟩ := hr
      rfl
    rw [EventRecorder.handleTimerEvent] at hnext ⊢
    rw [hfound]
    cases hfind : registry.findTimer timerId with
    | none =>
      rw [hfind] at hnext
      cases hnext
      exact ⟨registry', rfl, hr⟩
    | some timerImpl =>
      rw [hfind] at hnext
      exact hr.onTimerStoppedCb h hnext
  | senderNameVanished senderName now mono =>
    have hsenders : registry'.monitoredSenders = registry.monitoredSenders := by
      obtain ⟨tally', -, rfl⟩ := hr
      rfl
    rw [EventRecorder.handleTimerEvent] at hnext ⊢
    rw [hsenders]
    split at hnext
    · rename_i hnone
      rw [if_pos hnone]
      cases hnext
      exact ⟨registry', rfl, hr⟩
    · rename_i hwatched
      rw [if_neg hwatched]
      exact hr.senderNameVanishedCb h hnext
  | clockTickedMidnight mono now rescheduled =>
    cases hnext
    exact ⟨_, rfl, hr.clockTickedMidnightCb h mono now rescheduled⟩
  | permissionsChanged daemonEnabled =>
    cases hnext
    exact ⟨_, rfl, hr.onPermissionsChanged h daemonEnabled⟩
  | shutdown now mono =>
    cases hnext
    exact ⟨_, rfl, hr.shutdown h now mono⟩

end OverTally

end TimerRegistry

end EventRecorder
