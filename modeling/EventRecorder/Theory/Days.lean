import Mathlib

/-!
# Days — periods of time that follow one another

A calendar is given by when each of its days starts.  Days may differ in length, as they do where
clocks are changed twice a year.
-/

namespace EventRecorder.Theory

/-- The starts of days that follow one another. -/
structure Days where
  start : ℕ → ℤ
  start_strictMono : StrictMono start

namespace Days

variable (days : Days) {t t' : ℤ} {n : ℕ}

theorem add_le_start (n : ℕ) : days.start 0 + n ≤ days.start n := by
  induction n with
  | zero => simp
  | succ n ih =>
    have hnext : days.start n < days.start (n + 1) := days.start_strictMono (Nat.lt_succ_self n)
    push_cast
    omega

/-- The day of a time, the first one for times before it. -/
def dayAt (t : ℤ) : ℕ :=
  Nat.findGreatest (fun n => days.start n ≤ t) (t - days.start 0).toNat

variable {days}

/-- A day has begun by a time exactly when the day of that time is no earlier. -/
theorem le_dayAt_iff (hstart : days.start 0 ≤ t) : n ≤ days.dayAt t ↔ days.start n ≤ t := by
  constructor
  · intro hle
    have hbegun : days.start (days.dayAt t) ≤ t :=
      @Nat.findGreatest_spec 0 (fun n => days.start n ≤ t) _ _ (Nat.zero_le _) hstart
    exact (days.start_strictMono.monotone hle).trans hbegun
  · intro hbegun
    -- days are one unit long at least, so no day past the bound has begun
    apply Nat.le_findGreatest _ hbegun
    have hfar := days.add_le_start n
    omega

theorem dayAt_lt_iff (hstart : days.start 0 ≤ t) : days.dayAt t < n ↔ t < days.start n := by
  rw [← not_le, ← not_le, le_dayAt_iff hstart]

theorem start_dayAt_le (hstart : days.start 0 ≤ t) : days.start (days.dayAt t) ≤ t :=
  (le_dayAt_iff hstart).mp le_rfl

theorem lt_start_succ_dayAt (hstart : days.start 0 ≤ t) : t < days.start (days.dayAt t + 1) :=
  (dayAt_lt_iff hstart).mp (Nat.lt_succ_self _)

theorem dayAt_eq (hbegun : days.start n ≤ t) (hnext : t < days.start (n + 1)) :
    days.dayAt t = n := by
  have hstart : days.start 0 ≤ t :=
    (days.start_strictMono.monotone (Nat.zero_le n)).trans hbegun
  apply le_antisymm
  · exact Nat.lt_succ_iff.mp ((dayAt_lt_iff hstart).mpr hnext)
  · exact (le_dayAt_iff hstart).mpr hbegun

end Days

end EventRecorder.Theory
