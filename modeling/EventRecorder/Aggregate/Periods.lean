import EventRecorder.Aggregate.TallyIteration
import EventRecorder.Aggregate.TallySums
import EventRecorder.Theory.Digits

/-!
# Earlier, current and later periods

The query for earlier periods compares dates as texts, after their lengths.  For years of four
digits the lengths tell the two types of a tally apart, and texts of one type are in the order of
the calendar.
-/

namespace EventRecorder

open Theory EmerAggregateTally

/-! ## 1. The calendar -/

/-- A date of the calendar whose year has four digits. -/
structure GDateTime.InRange (datetime : GDateTime) : Prop where
  year_ge : 1000 ≤ datetime.year
  year_le : datetime.year ≤ 9999
  month_ge : 1 ≤ datetime.month
  month_le : datetime.month ≤ 12
  dayOfMonth_ge : 1 ≤ datetime.dayOfMonth
  dayOfMonth_le : datetime.dayOfMonth ≤ 31

/-- The day, or the month, of one date is before that of another. -/
def EmerTallyType.Before (tallyType : EmerTallyType) (a b : GDateTime) : Prop :=
  match tallyType with
  | .dailyEvents =>
    a.year < b.year ∨
      a.year = b.year ∧ (a.month < b.month ∨ a.month = b.month ∧ a.dayOfMonth < b.dayOfMonth)
  | .monthlyEvents => a.year < b.year ∨ a.year = b.year ∧ a.month < b.month

instance (tallyType : EmerTallyType) (a b : GDateTime) : Decidable (tallyType.Before a b) :=
  match tallyType with
  | .dailyEvents => inferInstanceAs (Decidable (_ ∨ _ ∧ (_ ∨ _ ∧ _)))
  | .monthlyEvents => inferInstanceAs (Decidable (_ ∨ _ ∧ _))

/-- Where a date stands to the period of another. -/
inductive Period where
  | earlier
  | current
  | later
  deriving DecidableEq, Repr

def Period.Contains (period : Period) (tallyType : EmerTallyType) (datetime : GDateTime)
    (stored : GDateTime) : Prop :=
  match period with
  | .earlier => tallyType.Before stored datetime
  | .current => tallyType.SamePeriod stored datetime
  | .later => tallyType.Before datetime stored

instance (period : Period) (tallyType : EmerTallyType) (datetime stored : GDateTime) :
    Decidable (period.Contains tallyType datetime stored) :=
  match period with
  | .earlier => inferInstanceAs (Decidable (tallyType.Before stored datetime))
  | .current => inferInstanceAs (Decidable (tallyType.SamePeriod stored datetime))
  | .later => inferInstanceAs (Decidable (tallyType.Before datetime stored))

theorem before_trichotomy (tallyType : EmerTallyType) (a b : GDateTime) :
    tallyType.Before a b ∨ tallyType.SamePeriod a b ∨ tallyType.Before b a := by
  obtain ⟨year, month, day⟩ := a
  obtain ⟨year', month', day'⟩ := b
  cases tallyType with
  | dailyEvents =>
    simp only [EmerTallyType.Before, EmerTallyType.SamePeriod, GDateTime.mk.injEq]
    omega
  | monthlyEvents =>
    simp only [EmerTallyType.Before, EmerTallyType.SamePeriod]
    omega

theorem not_samePeriod_of_before {tallyType : EmerTallyType} {a b : GDateTime}
    (h : tallyType.Before a b) : ¬ tallyType.SamePeriod a b := by
  obtain ⟨year, month, day⟩ := a
  obtain ⟨year', month', day'⟩ := b
  cases tallyType with
  | dailyEvents =>
    simp only [EmerTallyType.Before, EmerTallyType.SamePeriod, GDateTime.mk.injEq] at h ⊢
    omega
  | monthlyEvents =>
    simp only [EmerTallyType.Before, EmerTallyType.SamePeriod] at h ⊢
    omega

theorem not_before_of_before {tallyType : EmerTallyType} {a b : GDateTime}
    (h : tallyType.Before a b) : ¬ tallyType.Before b a := by
  cases tallyType with
  | dailyEvents =>
    simp only [EmerTallyType.Before] at h ⊢
    omega
  | monthlyEvents =>
    simp only [EmerTallyType.Before] at h ⊢
    omega

theorem samePeriod_symm {tallyType : EmerTallyType} {a b : GDateTime}
    (h : tallyType.SamePeriod a b) : tallyType.SamePeriod b a := by
  cases tallyType with
  | dailyEvents => exact Eq.symm h
  | monthlyEvents => exact ⟨h.1.symm, h.2.symm⟩

/-! ## 2. The texts of dates are in the order of the calendar -/

theorem twoDigits_isDigit {n : Nat} {c : Char} (hmem : c ∈ twoDigits n) : c.isDigit = true := by
  unfold twoDigits at hmem
  split at hmem
  · cases List.mem_cons.mp hmem with
    | inl h =>
      rw [h]
      rfl
    | inr h => exact toDigits_isDigit h
  · exact toDigits_isDigit hmem

theorem length_twoDigits {n : Nat} (hlt : n < 100) : (twoDigits n).length = 2 := by
  unfold twoDigits
  split
  · rename_i hsmall
    rw [Nat.toDigits_of_lt_base hsmall]
    rfl
  · exact @length_toDigits_eq n 1 (by omega) (by omega)

theorem twoDigits_lt_iff {m n : Nat} (hm : m < 100) (hn : n < 100) :
    twoDigits m < twoDigits n ↔ m < n := by
  rw [digits_lt_iff (by rw [length_twoDigits hm, length_twoDigits hn])
    (fun _ => twoDigits_isDigit) (fun _ => twoDigits_isDigit), ofDigitChars_twoDigits,
    ofDigitChars_twoDigits]

section Format

variable {a b : GDateTime} (ha : a.InRange) (hb : b.InRange)

include ha in
theorem length_year : (Nat.toDigits 10 a.year).length = 4 :=
  @length_toDigits_eq a.year 3 ha.year_ge (Nat.lt_succ_of_le ha.year_le)

include ha hb

theorem year_lt_iff : Nat.toDigits 10 a.year < Nat.toDigits 10 b.year ↔ a.year < b.year := by
  rw [digits_lt_iff (by rw [length_year ha, length_year hb]) (fun _ => toDigits_isDigit)
    (fun _ => toDigits_isDigit), Nat.ofDigitChars_ten_toDigits, Nat.ofDigitChars_ten_toDigits]

omit ha hb in
/-- A front, a hyphen and a rest. -/
theorem append_hyphen_lt_iff {front front' rest rest' : Text}
    (hlength : front.length = front'.length) :
    front ++ '-' :: rest < front' ++ '-' :: rest' ↔
      front < front' ∨ front = front' ∧ rest < rest' := by
  rw [append_lt_append_iff hlength, List.cons_lt_cons_iff]
  simp

/-- Texts of one type are in the order of the calendar. -/
theorem formatDatetimeForTallyType_lt_iff (tallyType : EmerTallyType) :
    formatDatetimeForTallyType a tallyType < formatDatetimeForTallyType b tallyType ↔
      tallyType.Before a b := by
  have hyears : (Nat.toDigits 10 a.year).length = (Nat.toDigits 10 b.year).length := by
    rw [length_year ha, length_year hb]
  have hmonth : a.month < 100 := Nat.lt_of_le_of_lt ha.month_le (by decide)
  have hmonth' : b.month < 100 := Nat.lt_of_le_of_lt hb.month_le (by decide)
  have hday : a.dayOfMonth < 100 := Nat.lt_of_le_of_lt ha.dayOfMonth_le (by decide)
  have hday' : b.dayOfMonth < 100 := Nat.lt_of_le_of_lt hb.dayOfMonth_le (by decide)
  cases tallyType with
  | dailyEvents =>
    show Nat.toDigits 10 a.year ++ '-' :: _ < Nat.toDigits 10 b.year ++ '-' :: _ ↔ _
    rw [append_hyphen_lt_iff hyears, year_lt_iff ha hb, toDigits_injective.eq_iff,
      append_hyphen_lt_iff (by rw [length_twoDigits hmonth, length_twoDigits hmonth']),
      twoDigits_lt_iff hmonth hmonth', twoDigits_injective.eq_iff, twoDigits_lt_iff hday hday']
    rfl
  | monthlyEvents =>
    show Nat.toDigits 10 a.year ++ '-' :: _ < Nat.toDigits 10 b.year ++ '-' :: _ ↔ _
    rw [append_hyphen_lt_iff hyears, year_lt_iff ha hb, toDigits_injective.eq_iff,
      twoDigits_lt_iff hmonth hmonth']
    rfl

/-- The length of a text is that of its type. -/
theorem length_formatDatetimeForTallyType_eq_iff (t u : EmerTallyType) :
    (formatDatetimeForTallyType a t).length = (formatDatetimeForTallyType b u).length ↔ t = u := by
  have hlength : ∀ {d : GDateTime}, d.InRange →
      (formatDatetimeForTallyType d .dailyEvents).length = 10 ∧
        (formatDatetimeForTallyType d .monthlyEvents).length = 7 := by
    intro d hd
    have hmonth : d.month < 100 := Nat.lt_of_le_of_lt hd.month_le (by decide)
    have hday : d.dayOfMonth < 100 := Nat.lt_of_le_of_lt hd.dayOfMonth_le (by decide)
    constructor
    · simp [formatDatetimeForTallyType, length_year hd, length_twoDigits hmonth,
        length_twoDigits hday]
    · simp [formatDatetimeForTallyType, length_year hd, length_twoDigits hmonth]
  obtain ⟨hdaily, hmonthly⟩ := hlength ha
  obtain ⟨hdaily', hmonthly'⟩ := hlength hb
  cases t <;> cases u <;> simp [hdaily, hmonthly, hdaily', hmonthly']

end Format

/-! ## 3. What the queries select -/

/-- Every row comes from a call that stored it.  Rows that were deleted may be missing. -/
def FilledBy (events : List TallyIncrement) (tally : EmerAggregateTally) : Prop :=
  ∀ row ∈ tally.rows, ∃ event ∈ events, row.key = event.key

/-- The rows that were stored as a type, for dates that stand so to the period of a date. -/
def storedRows (events : List TallyIncrement) (tallyType : EmerTallyType) (period : Period)
    (datetime : GDateTime) (tally : EmerAggregateTally) : List TallyRow :=
  tally.rows.filter fun row => ∃ event ∈ events, row.key = event.key ∧
    event.tallyType = tallyType ∧ period.Contains tallyType datetime event.datetime

/-- The rows that were stored as a type. -/
def typedRows (events : List TallyIncrement) (tallyType : EmerTallyType)
    (tally : EmerAggregateTally) : List TallyRow :=
  tally.rows.filter fun row => ∃ event ∈ events, row.key = event.key ∧
    event.tallyType = tallyType

namespace FilledBy

variable {events : List TallyIncrement} {tally : EmerAggregateTally}

theorem storeEvent (h : FilledBy events tally) {increment : TallyIncrement}
    {stored : EmerAggregateTally} (hstored : tally.storeEvent increment = .ok stored) :
    FilledBy (events ++ [increment]) stored := by
  have hold : ∀ row ∈ tally.rows, ∃ event ∈ events ++ [increment], row.key = event.key := by
    intro row hrow
    obtain ⟨event, hevent, hkey⟩ := h row hrow
    exact ⟨event, List.mem_append_left _ hevent, hkey⟩
  unfold EmerAggregateTally.storeEvent at hstored
  split at hstored
  · cases hstored
    exact hold
  · split at hstored
    · cases hstored
    · cases hstored
      intro row hrow
      cases (mem_map_key_upsert _ _ _ _ _).mp (List.mem_map_of_mem hrow) with
      | inl hfound =>
        obtain ⟨old, hmem, hkey⟩ := List.mem_map.mp hfound
        rw [← hkey]
        exact hold old hmem
      | inr hnew => exact ⟨increment, by simp, hnew⟩

theorem storeEvents {events : List TallyIncrement} {tally : EmerAggregateTally}
    (hstored : EventRecorder.storeEvents events = .ok tally) : FilledBy events tally := by
  induction events using List.reverseRecOn generalizing tally with
  | nil =>
    cases hstored
    exact fun row hrow => absurd hrow List.not_mem_nil
  | append_singleton events increment ih =>
    rw [EventRecorder.storeEvents, List.foldlM_append] at hstored
    cases hfront : EventRecorder.storeEvents events with
    | error e =>
      rw [EventRecorder.storeEvents] at hfront
      rw [hfront] at hstored
      cases hstored
    | ok before =>
      have hbefore := ih hfront
      rw [EventRecorder.storeEvents] at hfront
      rw [hfront] at hstored
      apply hbefore.storeEvent
      rw [← hstored]
      show before.storeEvent increment = (before.storeEvent increment >>= pure)
      cases before.storeEvent increment <;> rfl

end FilledBy

section Selects

variable {events : List TallyIncrement} {tallyType : EmerTallyType} {datetime : GDateTime}

/-- A key tells the type that it was stored as. -/
theorem tallyType_eq_of_key_eq {event other : TallyIncrement} (hkey : event.key = other.key) :
    event.tallyType = other.tallyType := by
  have hdate : formatDatetimeForTallyType event.datetime event.tallyType =
      formatDatetimeForTallyType other.datetime other.tallyType := congrArg TallyKey.date hkey
  exact ((formatDatetimeForTallyType_eq_iff _ _ _ _).mp hdate).1

/-- What the queries select, read from a call that stored the row. -/
theorem period_of_key {event : TallyIncrement} (hevent : event.datetime.InRange)
    (hdatetime : datetime.InRange) {row : TallyRow} (hkey : row.key = event.key) :
    (TallyQuery.iterBefore.selects tallyType datetime row = true ↔
        event.tallyType = tallyType ∧
          Period.earlier.Contains tallyType datetime event.datetime) ∧
      (TallyQuery.iter.selects tallyType datetime row = true ↔
        event.tallyType = tallyType ∧
          Period.current.Contains tallyType datetime event.datetime) := by
  have hdate : row.key.date = formatDatetimeForTallyType event.datetime event.tallyType := by
    rw [hkey]
    rfl
  constructor
  · rw [TallyQuery.selects, decide_eq_true_eq, hdate,
      length_formatDatetimeForTallyType_eq_iff hevent hdatetime]
    apply and_congr_right
    intro htype
    rw [htype]
    exact formatDatetimeForTallyType_lt_iff hevent hdatetime tallyType
  · rw [TallyQuery.selects, decide_eq_true_eq, hkey]
    exact date_key_eq_iff event

variable (hrange : ∀ event ∈ events, event.datetime.InRange) (hdatetime : datetime.InRange)
  {tally : EmerAggregateTally} (hfilled : FilledBy events tally)

include hrange

/-- The period that a row was stored for does not depend on the call. -/
theorem contains_iff_of_key_eq {event other : TallyIncrement} (hevent : event ∈ events)
    (hother : other ∈ events) (hdatetime : datetime.InRange) (hkey : event.key = other.key)
    (period : Period) :
    event.tallyType = tallyType ∧ period.Contains tallyType datetime event.datetime ↔
      other.tallyType = tallyType ∧ period.Contains tallyType datetime other.datetime := by
  have hdate : formatDatetimeForTallyType event.datetime event.tallyType =
      formatDatetimeForTallyType other.datetime other.tallyType := congrArg TallyKey.date hkey
  have htype := tallyType_eq_of_key_eq hkey
  rw [htype] at hdate ⊢
  apply and_congr_right
  intro hsame
  rw [hsame] at hdate
  cases period with
  | earlier =>
    show tallyType.Before _ _ ↔ tallyType.Before _ _
    rw [← formatDatetimeForTallyType_lt_iff (hrange _ hevent) hdatetime, hdate,
      formatDatetimeForTallyType_lt_iff (hrange _ hother) hdatetime]
  | current =>
    have hiff : ∀ d : GDateTime, formatDatetimeForTallyType d tallyType =
        formatDatetimeForTallyType datetime tallyType ↔ tallyType.SamePeriod d datetime := by
      intro d
      rw [formatDatetimeForTallyType_eq_iff]
      exact and_iff_right rfl
    show tallyType.SamePeriod _ _ ↔ tallyType.SamePeriod _ _
    rw [← hiff, hdate, hiff]
  | later =>
    show tallyType.Before _ _ ↔ tallyType.Before _ _
    rw [← formatDatetimeForTallyType_lt_iff hdatetime (hrange _ hevent), hdate,
      formatDatetimeForTallyType_lt_iff hdatetime (hrange _ hother)]

/-- Whether a row was stored for a period, read from any of the calls that stored it. -/
theorem stored_iff {event : TallyIncrement} (hevent : event ∈ events)
    (hdatetime : datetime.InRange) {row : TallyRow} (hkey : row.key = event.key)
    (period : Period) :
    (∃ event ∈ events, row.key = event.key ∧ event.tallyType = tallyType ∧
        period.Contains tallyType datetime event.datetime) ↔
      event.tallyType = tallyType ∧ period.Contains tallyType datetime event.datetime := by
  constructor
  · intro h
    obtain ⟨other, hother, hsame, hcontains⟩ := h
    exact (contains_iff_of_key_eq hrange hother hevent hdatetime (hsame.symm.trans hkey) period).mp
      hcontains
  · intro h
    exact ⟨event, hevent, hkey, h⟩

include hdatetime hfilled

theorem filter_iterBefore :
    tally.rows.filter (TallyQuery.iterBefore.selects tallyType datetime) =
      storedRows events tallyType .earlier datetime tally := by
  apply List.filter_congr
  intro row hrow
  obtain ⟨event, hevent, hkey⟩ := hfilled row hrow
  rw [Bool.eq_iff_iff, decide_eq_true_eq, stored_iff hrange hevent hdatetime hkey]
  exact (period_of_key (hrange event hevent) hdatetime hkey).1

theorem filter_iter :
    tally.rows.filter (TallyQuery.iter.selects tallyType datetime) =
      storedRows events tallyType .current datetime tally := by
  apply List.filter_congr
  intro row hrow
  obtain ⟨event, hevent, hkey⟩ := hfilled row hrow
  rw [Bool.eq_iff_iff, decide_eq_true_eq, stored_iff hrange hevent hdatetime hkey]
  exact (period_of_key (hrange event hevent) hdatetime hkey).2

omit hrange hdatetime in
/-- Whether a row is one of the type, read from the call that stored it. -/
theorem typed_of_row {row : TallyRow} (hrow : row ∈ tally.rows) :
    ∃ event ∈ events, row.key = event.key ∧
      ((∃ event ∈ events, row.key = event.key ∧ event.tallyType = tallyType) ↔
        event.tallyType = tallyType) := by
  obtain ⟨event, hevent, hkey⟩ := hfilled row hrow
  refine ⟨event, hevent, hkey, ?_, fun htype => ⟨event, hevent, hkey, htype⟩⟩
  intro h
  obtain ⟨other, hother, hsame, htype⟩ := h
  rw [tallyType_eq_of_key_eq (hkey.symm.trans hsame), htype]

theorem storedRows_earlier :
    storedRows events tallyType .earlier datetime tally =
      (typedRows events tallyType tally).filter
        (TallyQuery.iterBefore.selects tallyType datetime) := by
  rw [storedRows, typedRows, List.filter_filter]
  apply List.filter_congr
  intro row hrow
  obtain ⟨event, hevent, hkey, htyped⟩ := typed_of_row hfilled hrow
  rw [Bool.eq_iff_iff, Bool.and_eq_true, decide_eq_true_eq, decide_eq_true_eq, htyped,
    stored_iff hrange hevent hdatetime hkey,
    (period_of_key (hrange event hevent) hdatetime hkey).1]
  exact ⟨fun h => ⟨h, h.1⟩, fun h => h.1⟩

theorem storedRows_current :
    storedRows events tallyType .current datetime tally =
      ((typedRows events tallyType tally).filter
        (! TallyQuery.iterBefore.selects tallyType datetime ·)).filter
          (TallyQuery.iter.selects tallyType datetime) := by
  rw [storedRows, typedRows, List.filter_filter, List.filter_filter]
  apply List.filter_congr
  intro row hrow
  obtain ⟨event, hevent, hkey, htyped⟩ := typed_of_row hfilled hrow
  obtain ⟨hbefore, hsame⟩ := @period_of_key tallyType _ _ (hrange event hevent) hdatetime _ hkey
  rw [Bool.eq_iff_iff, Bool.and_eq_true, Bool.and_eq_true, Bool.not_eq_true',
    Bool.eq_false_iff, Ne, hsame, hbefore, decide_eq_true_eq, decide_eq_true_eq, htyped,
    stored_iff hrange hevent hdatetime hkey]
  constructor
  · intro h
    exact ⟨⟨h, fun hearlier => not_samePeriod_of_before hearlier.2 h.2⟩, h.1⟩
  · exact fun h => h.1.1

theorem storedRows_later :
    storedRows events tallyType .later datetime tally =
      ((typedRows events tallyType tally).filter
        (! TallyQuery.iterBefore.selects tallyType datetime ·)).filter
          (! TallyQuery.iter.selects tallyType datetime ·) := by
  rw [storedRows, typedRows, List.filter_filter, List.filter_filter]
  apply List.filter_congr
  intro row hrow
  obtain ⟨event, hevent, hkey, htyped⟩ := typed_of_row hfilled hrow
  obtain ⟨hbefore, hsame⟩ := @period_of_key tallyType _ _ (hrange event hevent) hdatetime _ hkey
  rw [Bool.eq_iff_iff, Bool.and_eq_true, Bool.and_eq_true, Bool.not_eq_true', Bool.not_eq_true',
    Bool.eq_false_iff, Bool.eq_false_iff, Ne, Ne, hsame, hbefore, decide_eq_true_eq,
    decide_eq_true_eq, htyped, stored_iff hrange hevent hdatetime hkey]
  constructor
  · intro h
    refine ⟨⟨fun hcurrent => ?_, fun hearlier => ?_⟩, h.1⟩
    · apply not_samePeriod_of_before h.2
      exact samePeriod_symm hcurrent.2
    · exact not_before_of_before h.2 hearlier.2
  · intro h
    refine ⟨h.2, ?_⟩
    rcases before_trichotomy tallyType event.datetime datetime with hearlier | hcurrent | hafter
    · exact absurd ⟨h.2, hearlier⟩ h.1.2
    · exact absurd ⟨h.2, hcurrent⟩ h.1.1
    · exact hafter

/-- The rows of a type are those of the three periods. -/
theorem typedRows_perm :
    (typedRows events tallyType tally).Perm
      (storedRows events tallyType .earlier datetime tally ++
        (storedRows events tallyType .current datetime tally ++
          storedRows events tallyType .later datetime tally)) := by
  -- what is not earlier is current or later
  rw [storedRows_current hrange hdatetime hfilled, storedRows_later hrange hdatetime hfilled]
  apply List.Perm.trans _ ((List.filter_append_perm _ _).symm.append_left _)
  rw [storedRows_earlier hrange hdatetime hfilled]
  exact (List.filter_append_perm _ _).symm

end Selects

/-- **The queries select the earlier and the current periods of their own type.** -/
theorem iterBefore_selects_earlier (glib : VariantLibrary) (order : ByteOrder) (delete : Bool)
    (select : SelectOrder) {events : List TallyIncrement}
    (hrange : ∀ event ∈ events, event.datetime.InRange) {datetime : GDateTime}
    (hdatetime : datetime.InRange) {tally : EmerAggregateTally} (hfilled : FilledBy events tally)
    (tallyType : EmerTallyType) :
    ((tally.iterBefore glib order collect delete select tallyType datetime []).2.2.Perm
        ((storedRows events tallyType .earlier datetime tally).map (rowArgs glib order)) ∧
      (tally.iter glib order collect delete select tallyType datetime []).2.2.Perm
        ((storedRows events tallyType .current datetime tally).map (rowArgs glib order))) ∧
    (typedRows events tallyType tally).Perm
      (storedRows events tallyType .earlier datetime tally ++
        (storedRows events tallyType .current datetime tally ++
          storedRows events tallyType .later datetime tally)) ∧
    ∀ row ∈ typedRows events tallyType tally, ∀ event ∈ events, row.key = event.key →
      event.tallyType = tallyType := by
  refine ⟨⟨?_, ?_⟩, typedRows_perm hrange hdatetime hfilled, ?_⟩
  · rw [iterBefore, iterInternal_collect, ← filter_iterBefore hrange hdatetime hfilled]
    exact (select.perm _).map _
  · rw [iter, iterInternal_collect, ← filter_iter hrange hdatetime hfilled]
    exact (select.perm _).map _
  · intro row hrow event _ hkey
    rw [typedRows, List.mem_filter, decide_eq_true_eq] at hrow
    obtain ⟨other, -, hsame, htype⟩ := hrow.2
    rw [tallyType_eq_of_key_eq (hkey.symm.trans hsame), htype]

theorem iterBefore_selects_earlier_sampleCalls :
    ∃ tally, storeEvents sampleCalls = .ok tally ∧
      (tally.iterBefore boxedNumbers .little collect true .byRowId .dailyEvents ⟨2021, 9, 23⟩
        []).2.2.Perm
        ((storedRows sampleCalls .dailyEvents .earlier ⟨2021, 9, 23⟩ tally).map
          (rowArgs boxedNumbers .little)) := by
  have hinRange : ∀ d : GDateTime, d.year = 2021 → d.month = 9 → 1 ≤ d.dayOfMonth →
      d.dayOfMonth ≤ 31 → d.InRange := by
    intro d hyear hmonth hlow hhigh
    exact ⟨by omega, by omega, by omega, by omega, hlow, hhigh⟩
  have hrange : ∀ event ∈ sampleCalls, event.datetime.InRange := by
    intro event hmem
    simp only [sampleCalls, List.mem_cons, List.not_mem_nil, or_false] at hmem
    rcases hmem with rfl | rfl | rfl | rfl | rfl | rfl
    all_goals exact hinRange _ rfl rfl (by decide) (by decide)
  have hok : (storeEvents sampleCalls).isOk = true := by decide +kernel
  cases hstored : storeEvents sampleCalls with
  | error e =>
    rw [hstored] at hok
    cases hok
  | ok tally =>
    exact ⟨tally, rfl, (iterBefore_selects_earlier boxedNumbers .little true .byRowId hrange
      (hinRange ⟨2021, 9, 23⟩ rfl rfl (by decide) (by decide)) (FilledBy.storeEvents hstored)
      .dailyEvents).1.1⟩

end EventRecorder
