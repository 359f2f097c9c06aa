import EventRecorder.Daemon.MidnightSweep
import EventRecorder.Theory.Days

/-!
# The clocks behind a midnight

The timer of a midnight counts on the clock that runs through a suspend, for as long as the wall
clock then needs to the next day.  Whether it comes on the day after the one that is swept depends
on what happens to the wall clock in the meantime.
-/

namespace EventRecorder

open Theory TimerRegistry EmerAggregateTally

/-! ## 1. Clocks and dates -/

def daysInMonth (year month : Nat) : Nat :=
  if month = 2 then
    if year % 4 = 0 ∧ (year % 100 ≠ 0 ∨ year % 400 = 0) then 29 else 28
  else if month = 4 ∨ month = 6 ∨ month = 9 ∨ month = 11 then 30
  else 31

/-- The date of `g_date_time_add_days (…, 1)`. -/
def GDateTime.addDay (self : GDateTime) : GDateTime :=
  if self.dayOfMonth < daysInMonth self.year self.month then
    { self with dayOfMonth := self.dayOfMonth + 1 }
  else if self.month < 12 then ⟨self.year, self.month + 1, 1⟩
  else ⟨self.year + 1, 1, 1⟩

/-- A local time zone.  Its days start at times in microseconds, and the first one has a date.  A
day is shorter than the range of `gint64`. -/
structure LocalTime extends Days where
  epoch : GDateTime
  start_lt : ∀ day, start (day + 1) - start day < 2 ^ 63

namespace LocalTime

variable (zone : LocalTime)

def date (day : Nat) : GDateTime := GDateTime.addDay^[day] zone.epoch

/-- The date of `g_date_time_new_now_local`. -/
def dateAt (realTimeUs : Int) : GDateTime := zone.date (zone.dayAt realTimeUs)

/-- `g_date_time_difference (next_midnight, now)`. -/
def timeToNextMidnightUs (realTimeUs : Int) : Int :=
  zone.start (zone.dayAt realTimeUs + 1) - realTimeUs

end LocalTime

/-- The clock that runs through a suspend, and how far the wall clock is ahead of it. -/
structure Clocks where
  boottimeNs : Nat
  realOffsetNs : Int
  deriving DecidableEq, Repr

namespace Clocks

variable (self : Clocks)

/-- What the wall clock reads when the other one reads so much. -/
def realTimeUsAt (boottimeNs : Nat) : Int := (boottimeNs + self.realOffsetNs) / 1000

def realTimeUs : Int := self.realTimeUsAt self.boottimeNs

def elapse (ns : Nat) : Clocks := { self with boottimeNs := self.boottimeNs + ns }

end Clocks

/-! ## 2. The source of the tick -/

/-- The time after which a timer file descriptor expires, first and ever after. -/
structure Itimerspec where
  tvSec : Nat
  tvNsec : Nat
  deriving DecidableEq, Repr

def einsBoottimeSourceNewUseconds (intervalUs : Nat) : Itimerspec where
  tvSec := intervalUs / 1000000
  tvNsec := intervalUs % 1000000 * 1000

/-- The first time at which the file descriptor is readable.  A time of zero disarms it. -/
def timerfdSettime (clocks : Clocks) (its : Itimerspec) : Option Nat :=
  if its.tvSec = 0 ∧ its.tvNsec = 0 then none
  else some (clocks.boottimeNs + (its.tvSec * 1000000000 + its.tvNsec))

/-- With the conversion of a `gint64` to the `guint64` of the parameter. -/
def einsBoottimeoutAddUseconds (clocks : Clocks) (intervalUs : Int) : Option Nat :=
  timerfdSettime clocks (einsBoottimeSourceNewUseconds (intervalUs % 2 ^ 64).toNat)

/-! ## 3. The daemon on its clocks -/

/-- What the main loop dispatches beside midnights. -/
inductive RegistryCall where
  | startAggregateTimer (call : StartAggregateTimer)
  | stopTimer (timerId : Nat) (nowMonotonicUs : Int)
  | senderNameVanished (senderName : Text) (nowMonotonicUs : Int)
  | shutdown (nowMonotonicUs : Int)

/-- The call on a day. -/
def RegistryCall.on (now : GDateTime) : RegistryCall → TimerEvent
  | .startAggregateTimer call => .startAggregateTimer call
  | .stopTimer timerId nowMonotonicUs => .stopTimer timerId now nowMonotonicUs
  | .senderNameVanished senderName nowMonotonicUs =>
    .senderNameVanished senderName now nowMonotonicUs
  | .shutdown nowMonotonicUs => .shutdown now nowMonotonicUs

/-- What a midnight takes: the time until the wall clock is read, from there until it is read for
the next tick, and from there until that is set up. -/
structure MidnightTimes where
  dailyNs : Nat
  monthlyNs : Nat
  armNs : Nat

/-- The wall clock is set by others.  A source is dispatched once its file descriptor is readable,
and `readSucceeds` says whether it could be read then. -/
inductive ClockedEvent where
  | elapse (ns : Nat)
  | setRealTime (realOffsetNs : Int)
  | call (call : RegistryCall)
  | dispatch (readSucceeds : Bool) (nowMonotonicUs : Int) (times : MidnightTimes)

/-- `expiresNs` is when the file descriptor of the source for the next tick becomes readable. -/
structure ClockedDaemon (κ : Type*) where
  clocks : Clocks
  timers : TimerRegistry κ
  expiresNs : Option Nat

namespace ClockedDaemon

variable {κ : Type*} (ops : AggregateTally κ) (sha1 : Bytes → Text → Bytes) (zone : LocalTime)
  (self : ClockedDaemon κ)

def today : GDateTime := zone.dateAt self.clocks.realTimeUs

def elapse (ns : Nat) : ClockedDaemon κ := { self with clocks := self.clocks.elapse ns }

@[simp] theorem expiresNs_elapse (ns : Nat) : (self.elapse ns).expiresNs = self.expiresNs := rfl

@[simp] theorem elapse_zero : self.elapse 0 = self := rfl

def scheduleNextMidnightTick (armNs : Nat) : ClockedDaemon κ :=
  let nowUs := self.clocks.realTimeUs
  let clocks := self.clocks.elapse armNs
  { clocks := clocks
    expiresNs := einsBoottimeoutAddUseconds clocks (zone.timeToNextMidnightUs nowUs)
    timers := { self.timers with currentAggregateTallyDate := zone.dateAt nowUs } }

def clockTickedMidnightCb (nowMonotonicUs : Int) (times : MidnightTimes) : ClockedDaemon κ :=
  let daily := self.elapse times.dailyNs
  let monthly := daily.elapse times.monthlyNs
  -- the date that is remembered is read once more when the tick is scheduled
  scheduleNextMidnightTick zone
    { monthly with
      timers := self.timers.clockTickedMidnightCb ops nowMonotonicUs (daily.today zone)
        (monthly.today zone) } times.armNs

def due : Bool := self.expiresNs.any (· ≤ self.clocks.boottimeNs)

def handle : ClockedEvent → Option (ClockedDaemon κ)
  | .elapse ns => some (self.elapse ns)
  | .setRealTime realOffsetNs =>
    some { self with clocks := { self.clocks with realOffsetNs := realOffsetNs } }
  | .call call =>
    (handleTimerEvent ops sha1 self.timers (call.on (self.today zone))).map
      fun timers => { self with timers := timers }
  | .dispatch readSucceeds nowMonotonicUs times =>
    if self.due then
      -- a source whose file descriptor could not be read is removed
      if readSucceeds then some (self.clockTickedMidnightCb ops zone nowMonotonicUs times)
      else some { self with expiresNs := none }
    else some self

/-- A run goes on until an assertion fails. -/
def step (state : Option (ClockedDaemon κ)) (event : ClockedEvent) : Option (ClockedDaemon κ) :=
  state.bind fun self => self.handle ops sha1 zone event

end ClockedDaemon

/-- The daemon is initialised, which schedules the first tick, and then constructed over the tally
that other lives of it have left. -/
def clockedDaemonNew {ε : Type*} (parts : AggregateParts ε) (zone : LocalTime) (clocks : Clocks)
    (armNs : Nat) (tally : EmerAggregateTally) (buffer : EventBuffer ε) :
    ClockedDaemon (AggregateQueue ε) :=
  let empty : ClockedDaemon (AggregateQueue ε) :=
    { clocks := clocks
      timers := timerRegistryNew true (zone.dateAt clocks.realTimeUs) ⟨tally, buffer, []⟩
      expiresNs := none }
  let initialised := empty.scheduleNextMidnightTick zone armNs
  { initialised with
    timers :=
      { initialised.timers with
        aggregateTally := initialised.timers.aggregateTally.bufferPastAggregateEvents parts true
          (initialised.today zone) } }

theorem expiresNs_clockedDaemonNew {ε : Type*} (parts : AggregateParts ε) (zone : LocalTime)
    (clocks : Clocks) (armNs : Nat) (tally : EmerAggregateTally) (buffer : EventBuffer ε) :
    (clockedDaemonNew parts zone clocks armNs tally buffer).expiresNs =
      einsBoottimeoutAddUseconds (clocks.elapse armNs)
        (zone.timeToNextMidnightUs clocks.realTimeUs) := rfl

theorem remembered_clockedDaemonNew {ε : Type*} (parts : AggregateParts ε) (zone : LocalTime)
    (clocks : Clocks) (armNs : Nat) (tally : EmerAggregateTally) (buffer : EventBuffer ε) :
    (clockedDaemonNew parts zone clocks armNs tally buffer).timers.currentAggregateTallyDate =
      zone.dateAt clocks.realTimeUs := rfl

/-! ## 4. The calendar -/

theorem before_trans {tallyType : EmerTallyType} {a b c : GDateTime}
    (hab : tallyType.Before a b) (hbc : tallyType.Before b c) : tallyType.Before a c := by
  cases tallyType with
  | dailyEvents =>
    simp only [EmerTallyType.Before] at hab hbc ⊢
    omega
  | monthlyEvents =>
    simp only [EmerTallyType.Before] at hab hbc ⊢
    omega

theorem before_addDay (datetime : GDateTime) :
    EmerTallyType.dailyEvents.Before datetime datetime.addDay := by
  unfold GDateTime.addDay
  split
  · exact .inr ⟨rfl, .inr ⟨rfl, Nat.lt_succ_self _⟩⟩
  · split
    · exact .inr ⟨rfl, .inl (Nat.lt_succ_self _)⟩
    · exact .inl (Nat.lt_succ_self _)

/-- A later day has a later date. -/
theorem LocalTime.before_date (zone : LocalTime) {day later : Nat} (hlt : day < later) :
    EmerTallyType.dailyEvents.Before (zone.date day) (zone.date later) := by
  have hnext : ∀ day, EmerTallyType.dailyEvents.Before (zone.date day) (zone.date (day + 1)) := by
    intro day
    rw [date, date, Function.iterate_succ_apply']
    exact before_addDay _
  -- induction on the later day, from the day after the first on
  induction later, hlt using Nat.le_induction with
  | base => exact hnext day
  | succ later _ ih => exact before_trans ih (hnext later)

/-! ## 5. When the tick comes -/

/-- A time in range arms the file descriptor for just as long. -/
theorem einsBoottimeoutAddUseconds_eq (clocks : Clocks) {intervalUs : Int} (hpos : 0 < intervalUs)
    (hlt : intervalUs < 2 ^ 63) :
    einsBoottimeoutAddUseconds clocks intervalUs =
      some (clocks.boottimeNs + intervalUs.toNat * 1000) := by
  have hmod : intervalUs % 2 ^ 64 = intervalUs := Int.emod_eq_of_lt hpos.le (by omega)
  rw [einsBoottimeoutAddUseconds, hmod]
  generalize hus : intervalUs.toNat = us
  -- a time that is not zero arms the file descriptor
  have hne : ¬ (us / 1000000 = 0 ∧ us % 1000000 * 1000 = 0) := by omega
  rw [einsBoottimeSourceNewUseconds, timerfdSettime, if_neg hne]
  have hns : us / 1000000 * 1000000000 + us % 1000000 * 1000 = us * 1000 := by omega
  rw [hns]

namespace LocalTime

variable {zone : LocalTime} {realTimeUs : Int} (hstart : zone.start 0 ≤ realTimeUs)

include hstart

theorem timeToNextMidnightUs_pos : 0 < zone.timeToNextMidnightUs realTimeUs :=
  sub_pos.mpr (Days.lt_start_succ_dayAt hstart)

theorem timeToNextMidnightUs_lt : zone.timeToNextMidnightUs realTimeUs < 2 ^ 63 := by
  have hbegun := Days.start_dayAt_le hstart
  have hlength := zone.start_lt (zone.dayAt realTimeUs)
  rw [timeToNextMidnightUs]
  omega

end LocalTime

namespace ClockedDaemon

variable {κ : Type*} {zone : LocalTime} {self : ClockedDaemon κ}

/-- The tick is set up for the next midnight by the wall clock, or for a little later. -/
theorem scheduleNextMidnightTick_expiresNs (hstart : zone.start 0 ≤ self.clocks.realTimeUs)
    (armNs : Nat) :
    ∃ ns, (self.scheduleNextMidnightTick zone armNs).expiresNs = some ns ∧
      zone.start (zone.dayAt self.clocks.realTimeUs + 1) ≤ self.clocks.realTimeUsAt ns := by
  have hpos := LocalTime.timeToNextMidnightUs_pos hstart
  refine ⟨_, einsBoottimeoutAddUseconds_eq _ hpos (LocalTime.timeToNextMidnightUs_lt hstart), ?_⟩
  rw [LocalTime.timeToNextMidnightUs] at hpos ⊢
  -- the wall clock was rounded down to microseconds, which can only delay the tick
  generalize zone.start (zone.dayAt self.clocks.realTimeUs + 1) = midnight at hpos ⊢
  rw [Clocks.realTimeUs, Clocks.realTimeUsAt] at hpos ⊢
  rw [Clocks.realTimeUsAt, Clocks.elapse]
  push_cast
  omega

theorem isSome_scheduleNextMidnightTick (hstart : zone.start 0 ≤ self.clocks.realTimeUs)
    (armNs : Nat) : (self.scheduleNextMidnightTick zone armNs).expiresNs.isSome := by
  obtain ⟨ns, hexpires, -⟩ := scheduleNextMidnightTick_expiresNs hstart armNs
  exact Option.isSome_of_mem hexpires

/-- What holds of the daemon while nobody sets the wall clock back: the tick comes after the day
that is remembered. -/
structure OnTime (zone : LocalTime) (daemon : ClockedDaemon κ) : Prop where
  started : zone.start 0 ≤ daemon.clocks.realTimeUs
  remembered : ∃ day, daemon.timers.currentAggregateTallyDate = zone.date day ∧
    ∀ ns ∈ daemon.expiresNs, zone.start (day + 1) ≤ daemon.clocks.realTimeUsAt ns

/-- Clocks that have gone on from others. -/
structure Ahead (clocks later : Clocks) : Prop where
  boottimeNs_le : clocks.boottimeNs ≤ later.boottimeNs
  realOffsetNs_le : clocks.realOffsetNs ≤ later.realOffsetNs

theorem Ahead.realTimeUsAt_le {clocks later : Clocks} (h : Ahead clocks later) (ns : Nat) :
    clocks.realTimeUsAt ns ≤ later.realTimeUsAt ns := by
  have := h.realOffsetNs_le
  rw [Clocks.realTimeUsAt, Clocks.realTimeUsAt]
  omega

theorem Ahead.realTimeUs_le {clocks later : Clocks} (h : Ahead clocks later) :
    clocks.realTimeUs ≤ later.realTimeUs := by
  have := h.realOffsetNs_le
  have := h.boottimeNs_le
  rw [Clocks.realTimeUs, Clocks.realTimeUs, Clocks.realTimeUsAt, Clocks.realTimeUsAt]
  omega

theorem ahead_elapse (clocks : Clocks) (ns : Nat) : Ahead clocks (clocks.elapse ns) :=
  ⟨Nat.le_add_right _ _, le_rfl⟩

namespace OnTime

theorem scheduleNextMidnightTick (hstart : zone.start 0 ≤ self.clocks.realTimeUs) (armNs : Nat) :
    (self.scheduleNextMidnightTick zone armNs).OnTime zone := by
  obtain ⟨ns, hexpires, hmidnight⟩ := scheduleNextMidnightTick_expiresNs hstart armNs
  refine ⟨hstart.trans (ahead_elapse _ _).realTimeUs_le, zone.dayAt self.clocks.realTimeUs, rfl, ?_⟩
  intro ns' hns'
  rw [hexpires] at hns'
  cases hns'
  exact hmidnight

/-- Going on, with the same date and the same tick or none. -/
theorem goOn (h : self.OnTime zone) {next : ClockedDaemon κ}
    (hclocks : Ahead self.clocks next.clocks)
    (hdate : next.timers.currentAggregateTallyDate = self.timers.currentAggregateTallyDate)
    (hexpires : next.expiresNs = self.expiresNs ∨ next.expiresNs = none) : next.OnTime zone := by
  obtain ⟨day, hday, hmidnight⟩ := h.remembered
  refine ⟨h.started.trans hclocks.realTimeUs_le, day, hdate.trans hday, fun ns hns => ?_⟩
  rcases hexpires with hsame | hnone
  · rw [hsame] at hns
    exact (hmidnight ns hns).trans (hclocks.realTimeUsAt_le ns)
  · rw [hnone] at hns
    cases hns

/-- A tick that is due comes on a later day than the one it sweeps. -/
theorem before_today (h : self.OnTime zone) (hdue : self.due = true) (ns : Nat) :
    EmerTallyType.dailyEvents.Before self.timers.currentAggregateTallyDate
      ((self.elapse ns).today zone) := by
  obtain ⟨day, hday, hmidnight⟩ := h.remembered
  obtain ⟨expires, hexpires, hle⟩ := (Option.any_eq_true _ _).mp hdue
  rw [decide_eq_true_eq] at hle
  have hbegun := hmidnight expires hexpires
  have hahead := (ahead_elapse self.clocks ns).realTimeUs_le
  -- the next day had begun when the file descriptor became readable, and time has gone on since
  rw [hday]
  apply zone.before_date
  apply Nat.lt_of_succ_le
  apply (Days.le_dayAt_iff (h.started.trans hahead)).mpr
  apply hbegun.trans
  apply le_trans _ hahead
  rw [Clocks.realTimeUs, Clocks.realTimeUsAt, Clocks.realTimeUsAt]
  omega

end OnTime

end ClockedDaemon

end EventRecorder
