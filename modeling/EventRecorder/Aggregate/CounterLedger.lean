import EventRecorder.Aggregate.Registry
import EventRecorder.Aggregate.TallyIteration
import EventRecorder.Aggregate.TallySums
import EventRecorder.Theory.Dealt

/-!
# What becomes of stored counters

A counter that was stored is part of one row of the table, until the row is handed over and deleted
or the table is cleared.  Statements of SQLite may fail on the way, and the process may be started
anew: a row can then be handed over more than once, but no counter gets lost and none is counted
that was not stored.
-/

namespace EventRecorder

open Theory TimerRegistry EmerAggregateTally

/-! ## 1. Statements that fail -/

/-- A result code that `check_sqlite_error` reports. -/
structure SqliteFailure where
  code : Int
  ne_ok : code ≠ 0
  ne_row : code ≠ sqliteRow
  ne_done : code ≠ sqliteDone

/-- The statement of an iteration that fails, if any. -/
inductive IterFault where
  | none
  /-- `sqlite3_prepare_v2` or `sqlite3_bind_text`. -/
  | prepare (failure : SqliteFailure)
  /-- `sqlite3_step`, after a number of rows. -/
  | step (numRows : Nat) (failure : SqliteFailure)
  /-- The deletion of the visited rows. -/
  | delete (failure : SqliteFailure)

/-- What fails while one event is handled.  An event stores a counter once and iterates over the
rows of a type once. -/
structure TallyFaults where
  store : TallyIncrement → Option SqliteFailure
  iter : EmerTallyType → IterFault
  clear : Option SqliteFailure

namespace EmerAggregateTally

variable (self : EmerAggregateTally)

/-- `emer_aggregate_tally_store_event`.  The statement changes the table with its last step only. -/
def storeEventUnder (fault : Option SqliteFailure) (increment : TallyIncrement) :
    Except EmerSqliteError EmerAggregateTally :=
  -- the type of the payload is looked at before there is a statement
  if increment.payload.any (·.typeString ≠ gVariantTypeVariant) then .ok self
  else
    match fault with
    | some failure => .error ⟨failure.code⟩
    | none => self.storeEvent increment

/-- `emer_aggregate_tally_iter_internal`. -/
def iterInternalUnder {σ : Type*} (glib : VariantLibrary) (order : ByteOrder)
    (func : σ → TallyIterArgs → EmerTallyIterResult × σ) (delete : Bool) (fault : IterFault)
    (select : SelectOrder) (query : TallyRow → Bool) (state : σ) :
    Option EmerSqliteError × EmerAggregateTally × σ :=
  match fault with
  | .none => self.iterInternal glib order func delete select query state
  | .prepare failure => (some ⟨failure.code⟩, self, state)
  | .step numRows failure =>
    let (ret, _, state) :=
      iterRows glib order func delete ((select.reorder (self.rows.filter query)).take numRows) state
    -- a callback may have stopped the loop before the failure
    if ret ≠ sqliteDone then (some ⟨ret⟩, self, state) else (some ⟨failure.code⟩, self, state)
  | .delete failure =>
    let (ret, rowsToDelete, state) :=
      iterRows glib order func delete (select.reorder (self.rows.filter query)) state
    if ret ≠ sqliteDone then (some ⟨ret⟩, self, state)
    -- without rows there is nothing to delete
    else if rowsToDelete = [] then (none, self, state)
    else (some ⟨failure.code⟩, self, state)

/-- `emer_aggregate_tally_clear`. -/
def clearUnder (fault : Option SqliteFailure) : EmerAggregateTally :=
  match fault with
  | some _ => self
  | none => self.clear

end EmerAggregateTally

/-! ## 2. The ledger -/

/-- The tally, beside the counters stored in it, the calls of the callback, and the rows that have
left the table. -/
structure CounterLedger where
  tally : EmerAggregateTally
  stored : List TallyIncrement
  handedOver : List TallyIterArgs
  deleted : List TallyRow
  cleared : List TallyRow

/-- The row is the sum of these calls. -/
structure TallyRow.SumsUp (row : TallyRow) (calls : List TallyIncrement) : Prop where
  nonempty : calls ≠ []
  key : ∀ call ∈ calls, call.key = row.key
  counter : row.counter = .ofSum (calls.map (·.counter)).sum

namespace CounterLedger

def empty : CounterLedger := ⟨⟨[]⟩, [], [], [], []⟩

section Operations

variable (glib : VariantLibrary) (order : ByteOrder) (select : SelectOrder) (faults : TallyFaults)
  (self : CounterLedger)

def storeEvent (increment : TallyIncrement) : Except EmerSqliteError CounterLedger :=
  (self.tally.storeEventUnder (faults.store increment) increment).map fun tally =>
    { self with
      tally := tally
      stored :=
        if increment.payload.any (·.typeString ≠ gVariantTypeVariant) then self.stored
        else self.stored ++ [increment] }

/-- An iteration with `EMER_TALLY_ITER_FLAG_DELETE`. -/
def iterate (query : TallyQuery) (tallyType : EmerTallyType) (datetime : GDateTime) :
    CounterLedger :=
  let (_, tally, handedOver) :=
    self.tally.iterInternalUnder glib order collect true (faults.iter tallyType) select
      (query.selects tallyType datetime) self.handedOver
  { self with
    tally := tally
    handedOver := handedOver
    deleted := self.deleted ++ self.tally.rows.filter (· ∉ tally.rows) }

def clear : CounterLedger :=
  let tally := self.tally.clearUnder faults.clear
  { self with
    tally := tally
    cleared := self.cleared ++ self.tally.rows.filter (· ∉ tally.rows) }

/-- `buffer_past_aggregate_events`. -/
def bufferPastAggregateEvents (now : GDateTime) : CounterLedger :=
  (self.iterate glib order select faults .iterBefore .dailyEvents now).iterate
    glib order select faults .iterBefore .monthlyEvents now

def tallyOps : AggregateTally CounterLedger where
  storeEvent ledger increment := ledger.storeEvent faults increment
  iter ledger tallyType datetime := ledger.iterate glib order select faults .iter tallyType datetime
  clear ledger := ledger.clear faults

end Operations

/-- The counters that were stored are dealt out to the rows, and a row is deleted only after it was
handed over. -/
structure Conserved (glib : VariantLibrary) (order : ByteOrder) (ledger : CounterLedger) :
    Prop where
  rowIds : ledger.tally.HasRowIds
  keys : (ledger.tally.rows.map (·.key)).Nodup
  dealt : Dealt TallyRow.SumsUp (ledger.tally.rows ++ (ledger.deleted ++ ledger.cleared))
    ledger.stored
  handedOver : (ledger.deleted.map (rowArgs glib order)).Subperm ledger.handedOver
  genuine : ∀ args ∈ ledger.handedOver, ∃ row calls, rowArgs glib order row = args ∧
    row.SumsUp calls ∧ calls.Subperm ledger.stored

end CounterLedger

/-- The tally is kept in a file: after the process has ended, the daemon starts anew over it. -/
inductive LedgerEvent where
  | timer (event : TimerEvent)
  | restart (recordingEnabled : Bool) (now : GDateTime)

/-- Handle an event with the statements that fail meanwhile.  Without a result once an assertion has
failed. -/
def ledgerStep (glib : VariantLibrary) (order : ByteOrder) (select : SelectOrder)
    (sha1 : Bytes → Text → Bytes) (registry : Option (TimerRegistry CounterLedger))
    (event : TallyFaults × LedgerEvent) : Option (TimerRegistry CounterLedger) :=
  match event.2 with
  | .timer timerEvent =>
    timerStep (CounterLedger.tallyOps glib order select event.1) sha1 registry timerEvent
  | .restart recordingEnabled now =>
    registry.map fun registry =>
      timerRegistryNew recordingEnabled now
        (registry.aggregateTally.bufferPastAggregateEvents glib order select event.1 now)

/-! ## 3. A law that the tally operations keep -/

/-- The operations that a registry calls keep a law of the tally. -/
structure KeptByTally {κ : Type*} (ops : AggregateTally κ) (P : κ → Prop) : Prop where
  storeEvent : ∀ {tally stored : κ} {increment : TallyIncrement}, P tally →
    increment.counter ≤ gMaxuint32 → ops.storeEvent tally increment = .ok stored → P stored
  iter : ∀ {tally : κ} (tallyType : EmerTallyType) (datetime : GDateTime), P tally →
    P (ops.iter tally tallyType datetime)
  clear : ∀ {tally : κ}, P tally → P (ops.clear tally)

namespace KeptByTally

variable {κ : Type*} {ops : AggregateTally κ} {P : κ → Prop} {tally : κ}

theorem store (h : KeptByTally ops P) (htally : P tally) (timerImpl : EmerAggregateTimerImpl)
    (tallyType : EmerTallyType) (date : GDateTime) (mono : Int) :
    ∀ stored, timerImpl.store ops tallyType date mono tally = .ok stored → P stored := by
  intro stored hstored
  exact h.storeEvent htally (Nat.min_le_right _ _) hstored

theorem stop (h : KeptByTally ops P) (htally : P tally) (timerImpl : EmerAggregateTimerImpl)
    (now : GDateTime) (mono : Int) : P (timerImpl.stop ops now mono tally).2 := by
  have hstore := fun tally (htally : P tally) tallyType =>
    h.store htally timerImpl tallyType now mono
  unfold EmerAggregateTimerImpl.stop
  cases hdaily : ops.storeEvent tally (timerImpl.increment .dailyEvents now mono) with
  | error e => exact htally
  | ok daily =>
    have hkept : P daily := hstore tally htally .dailyEvents daily hdaily
    dsimp only
    cases hmonthly : ops.storeEvent daily (timerImpl.increment .monthlyEvents now mono) with
    | error e => exact hkept
    | ok monthly => exact hstore daily hkept .monthlyEvents monthly hmonthly

theorem tallyAfterStops (h : KeptByTally ops P) (htally : P tally) (now : GDateTime) (mono : Int)
    (timers : List EmerAggregateTimerImpl) :
    P (TimerRegistry.tallyAfterStops ops now mono timers tally) := by
  induction timers generalizing tally with
  | nil => exact htally
  | cons timerImpl timers ih => exact ih (h.stop htally timerImpl now mono)

theorem tallyAfterSave (h : KeptByTally ops P) (htally : P tally) (tallyType : EmerTallyType)
    (date : GDateTime) (mono : Int) (timers : List EmerAggregateTimerImpl) :
    P (TimerRegistry.tallyAfterSave ops tallyType date mono timers tally) := by
  induction timers generalizing tally with
  | nil => exact htally
  | cons timerImpl timers ih =>
    apply ih
    dsimp only
    cases hstore : timerImpl.store ops tallyType date mono tally with
    | error e => exact htally
    | ok stored => exact h.store htally timerImpl tallyType date mono stored hstore

/-- **Step lemma.**  A law that each operation keeps is kept by every event. -/
theorem handleTimerEvent (h : KeptByTally ops P) (sha1 : Bytes → Text → Bytes)
    {r : TimerRegistry κ} (hr : r.Consistent) (htally : P r.aggregateTally) (event : TimerEvent) :
    ∃ r', EventRecorder.handleTimerEvent ops sha1 r event = some r' ∧ r'.Consistent ∧
      P r'.aggregateTally := by
  obtain ⟨r', hstep, hr'⟩ := hr.handleTimerEvent ops sha1 event
  refine ⟨r', hstep, hr', ?_⟩
  cases event with
  | startAggregateTimer call =>
    rw [EventRecorder.handleTimerEvent] at hstep
    cases hstart : r.startAggregateTimer sha1 call with
    | error e =>
      rw [hstart] at hstep
      cases hstep
      exact htally
    | ok started =>
      obtain ⟨_, -, -, -, -, -, -, -, hsame⟩ := startAggregateTimer_eq hstart
      rw [hstart] at hstep
      cases hstep
      rw [hsame]
      exact htally
  | stopTimer timerId now mono =>
    rw [EventRecorder.handleTimerEvent] at hstep
    cases hfind : r.findTimer timerId with
    | none =>
      rw [hfind] at hstep
      cases hstep
      exact htally
    | some timerImpl =>
      rw [hfind] at hstep
      obtain ⟨senderData, hsender, -⟩ := hr.watched (mem_of_findTimer hfind).1
      obtain ⟨stopped, hstopped, -, -, -, -, heq⟩ := onTimerStoppedCb_eq ops hsender now mono
      cases hstopped.symm.trans hstep
      rw [heq]
      exact h.stop htally timerImpl now mono
  | senderNameVanished name now mono =>
    rw [EventRecorder.handleTimerEvent] at hstep
    cases hsender : r.monitoredSenders name with
    | none =>
      rw [hsender] at hstep
      cases hstep
      exact htally
    | some senderData =>
      rw [hsender, if_neg (by simp)] at hstep
      obtain ⟨stopped, timers, hstopped, -, -, -, -, -, -, heq⟩ :=
        senderNameVanishedCb_eq ops hr hsender now mono
      cases hstopped.symm.trans hstep
      rw [heq]
      exact h.tallyAfterStops htally now mono timers
  | clockTickedMidnight mono now rescheduled =>
    have heq : r.clockTickedMidnightCb ops mono now rescheduled = r' := Option.some.inj hstep
    rw [← heq, clockTickedMidnightCb_eq]
    have hdaily := h.iter .dailyEvents r.currentAggregateTallyDate
      (h.tallyAfterSave htally .dailyEvents r.currentAggregateTallyDate mono r.aggregateTimers)
    dsimp only
    split
    · exact h.iter .monthlyEvents r.currentAggregateTallyDate
        (h.tallyAfterSave hdaily .monthlyEvents r.currentAggregateTallyDate mono r.aggregateTimers)
    · exact hdaily
  | permissionsChanged daemonEnabled =>
    have heq : r.onPermissionsChanged ops daemonEnabled = r' := Option.some.inj hstep
    rw [← heq, onPermissionsChanged]
    split
    · exact htally
    · exact h.clear htally
  | shutdown now mono =>
    have heq : r.shutdown ops now mono = r' := Option.some.inj hstep
    rw [← heq, shutdown_eq]
    exact h.tallyAfterStops htally now mono r.aggregateTimers

end KeptByTally

/-! ## 4. Rows and the counters that they sum up -/

/-- An upsert adds to the row of its key, or appends a row. -/
theorem upsert_cases (id : Nat) (key : TallyKey) (counter : SqlNumber) (rows : List TallyRow) :
    (∃ front row rest, rows = front ++ row :: rest ∧ row.key = key ∧
      upsert id key counter rows =
        front ++ { row with counter := row.counter.add counter } :: rest) ∨
    (key ∉ rows.map (·.key) ∧ upsert id key counter rows = rows ++ [⟨id, key, counter⟩]) := by
  induction rows with
  | nil => exact .inr ⟨List.not_mem_nil, rfl⟩
  | cons first rows ih =>
    rw [upsert]
    by_cases hkey : first.key = key
    · rw [if_pos hkey]
      exact .inl ⟨[], first, rows, rfl, hkey, rfl⟩
    · rw [if_neg hkey]
      cases ih with
      | inl hfound =>
        obtain ⟨front, row, rest, hrows, hrow, heq⟩ := hfound
        exact .inl ⟨first :: front, row, rest, by rw [hrows, List.cons_append], hrow,
          by rw [heq, List.cons_append]⟩
      | inr hnew =>
        obtain ⟨hnotMem, heq⟩ := hnew
        refine .inr ⟨?_, by rw [heq, List.cons_append]⟩
        rw [List.map_cons, List.mem_cons]
        rintro (h | h)
        · exact hkey h.symm
        · exact hnotMem h

theorem SqlNumber.integer_eq_ofSum {counter : Nat} (h : counter ≤ gMaxuint32) :
    SqlNumber.integer counter = .ofSum counter := by
  rw [gMaxuint32] at h
  exact (if_pos (by omega)).symm

theorem TallyRow.SumsUp.add {row : TallyRow} {calls : List TallyIncrement}
    (h : row.SumsUp calls) {increment : TallyIncrement} (hkey : row.key = increment.key)
    (hcounter : increment.counter ≤ gMaxuint32) :
    TallyRow.SumsUp { row with counter := row.counter.add (.integer increment.counter) }
      (calls ++ [increment]) where
  nonempty := List.append_ne_nil_of_right_ne_nil calls (List.cons_ne_nil increment [])
  key := by
    intro call hcall
    cases List.mem_append.mp hcall with
    | inl hold => exact h.key call hold
    | inr hnew => rw [List.mem_singleton.mp hnew, ← hkey]
  counter := by
    show row.counter.add (.integer increment.counter) = _
    rw [h.counter, SqlNumber.integer_eq_ofSum hcounter, ← SqlNumber.ofSum_add, List.map_append,
      List.sum_append]
    simp

theorem TallyRow.sumsUp_singleton (id : Nat) {increment : TallyIncrement}
    (hcounter : increment.counter ≤ gMaxuint32) :
    TallyRow.SumsUp ⟨id, increment.key, .integer increment.counter⟩ [increment] where
  nonempty := List.cons_ne_nil increment []
  key := by
    intro call hcall
    rw [List.mem_singleton.mp hcall]
  counter := by simp [SqlNumber.integer_eq_ofSum hcounter]

/-- The rows that are left and those that are gone are the rows that were there. -/
theorem perm_append_filter {rows kept : List TallyRow} (hsublist : kept.Sublist rows)
    (hnodup : rows.Nodup) : (kept ++ rows.filter (· ∉ kept)).Perm rows := by
  have hkept : (rows.filter (· ∈ kept)).Perm kept := by
    apply (List.perm_ext_iff_of_nodup (hnodup.filter _) (hnodup.sublist hsublist)).mpr
    intro row
    rw [List.mem_filter, decide_eq_true_eq]
    exact and_iff_right_of_imp fun h => hsublist.subset h
  have hsplit := List.filter_append_perm (· ∈ kept) rows
  refine (hkept.symm.append ?_).trans hsplit
  apply List.Perm.of_eq
  apply List.filter_congr
  intro row _
  by_cases h : row ∈ kept <;> simp [h]

/-! ## 5. The operations -/

section Operations

variable {glib : VariantLibrary} {order : ByteOrder} {select : SelectOrder} {faults : TallyFaults}
  {ledger : CounterLedger}

/-- An iteration hands over the rows that it visits, and what it takes out of the table is among
these. -/
theorem EmerAggregateTally.iterInternalUnder_collect (tally : EmerAggregateTally)
    (fault : IterFault) (query : TallyRow → Bool) (handedOver : List TallyIterArgs) :
    ∃ visited : List TallyRow, visited.Sublist (select.reorder (tally.rows.filter query)) ∧
      (tally.iterInternalUnder glib order collect true fault select query handedOver).2.2 =
        handedOver ++ visited.map (rowArgs glib order) ∧
      ((tally.iterInternalUnder glib order collect true fault select query handedOver).2.1 = tally ∧
          fault ≠ .none ∨
        (tally.iterInternalUnder glib order collect true fault select query handedOver).2.1 =
          ⟨tally.rows.filter (·.id ∉ visited.map (·.id))⟩) := by
  cases fault with
  | none =>
    refine ⟨_, List.Sublist.refl _, ?_, .inr ?_⟩
    · rw [iterInternalUnder, iterInternal, iterRows_collect]
      simp
    · rw [iterInternalUnder, iterInternal, iterRows_collect]
      simp
  | prepare failure =>
    exact ⟨[], List.nil_sublist _, (List.append_nil _).symm, .inl ⟨rfl, IterFault.noConfusion⟩⟩
  | step numRows failure =>
    refine ⟨_, List.take_sublist numRows _, ?_, .inl ⟨?_, IterFault.noConfusion⟩⟩
    · rw [iterInternalUnder, iterRows_collect]
      simp
    · rw [iterInternalUnder, iterRows_collect]
      simp
  | delete failure =>
    refine ⟨_, List.Sublist.refl _, ?_, .inl ⟨?_, IterFault.noConfusion⟩⟩
    · rw [iterInternalUnder, iterRows_collect]
      dsimp only
      rw [if_neg (not_not.mpr rfl)]
      -- the rows are visited before there is anything to delete
      by_cases hrows : (select.reorder (tally.rows.filter query)).map (·.id) = []
      · simp [hrows]
      · simp [hrows]
    · rw [iterInternalUnder, iterRows_collect]
      dsimp only
      rw [if_neg (not_not.mpr rfl)]
      by_cases hrows : (select.reorder (tally.rows.filter query)).map (·.id) = []
      · simp [hrows]
      · simp [hrows]

/-- What a store that is answered without an error changes. -/
theorem CounterLedger.storeEvent_cases {increment : TallyIncrement} {stored : CounterLedger}
    (hstored : ledger.storeEvent faults increment = .ok stored) :
    stored = ledger ∨
      ledger.tally.storeEvent increment = .ok stored.tally ∧
        stored = { ledger with
          tally := ⟨upsert (nextRowId ledger.tally.rows) increment.key
            (.integer increment.counter) ledger.tally.rows⟩
          stored := ledger.stored ++ [increment] } := by
  unfold CounterLedger.storeEvent storeEventUnder at hstored
  by_cases hpayload : increment.payload.any (·.typeString ≠ gVariantTypeVariant) = true
  · simp only [if_pos hpayload] at hstored
    cases hstored
    exact .inl rfl
  · simp only [if_neg hpayload] at hstored
    cases hfault : faults.store increment with
    | some failure =>
      rw [hfault] at hstored
      cases hstored
    | none =>
      rw [hfault] at hstored
      dsimp only at hstored
      rw [EmerAggregateTally.storeEvent, if_neg hpayload] at hstored ⊢
      by_cases hevent : increment.eventId.length = uuidLength
      · rw [if_neg (not_not.mpr hevent)] at hstored ⊢
        cases hstored
        exact .inr ⟨rfl, rfl⟩
      · rw [if_pos hevent] at hstored
        cases hstored

variable (glib order select faults) in
/-- What an iteration takes out of the table is what it has visited, or nothing. -/
theorem CounterLedger.iterate_cases (hids : ledger.tally.HasRowIds) (query : TallyQuery)
    (tallyType : EmerTallyType) (datetime : GDateTime) :
    ∃ visited : List TallyRow, (∀ row ∈ visited, row ∈ ledger.tally.rows) ∧
      (faults.iter tallyType ≠ .none ∧
          ledger.iterate glib order select faults query tallyType datetime =
            { ledger with
              handedOver := ledger.handedOver ++ visited.map (rowArgs glib order) } ∨
        ∃ kept : List TallyRow, kept.Sublist ledger.tally.rows ∧
          (ledger.tally.rows.filter (· ∉ kept)).Perm visited ∧
          ledger.iterate glib order select faults query tallyType datetime =
            { ledger with
              tally := ⟨kept⟩
              handedOver := ledger.handedOver ++ visited.map (rowArgs glib order)
              deleted := ledger.deleted ++ ledger.tally.rows.filter (· ∉ kept) }) := by
  obtain ⟨visited, hsublist, hcalls, htable⟩ := @iterInternalUnder_collect glib order select
    ledger.tally (faults.iter tallyType) (query.selects tallyType datetime) ledger.handedOver
  have hvisited : ∀ row ∈ visited, row ∈ ledger.tally.rows := fun row hrow =>
    List.mem_of_mem_filter ((select.perm _).mem_iff.mp (hsublist.subset hrow))
  refine ⟨visited, hvisited, ?_⟩
  unfold CounterLedger.iterate
  generalize ledger.tally.iterInternalUnder glib order collect true (faults.iter tallyType) select
    (query.selects tallyType datetime) ledger.handedOver = result at hcalls htable ⊢
  obtain ⟨error, tally, calls⟩ := result
  dsimp only at hcalls htable ⊢
  subst hcalls
  cases htable with
  -- the statements have failed: every row is still there
  | inl hsame =>
    refine .inl ⟨hsame.2, ?_⟩
    rw [hsame.1]
    simp
  | inr hdeleted =>
    have hnodup : ledger.tally.rows.Nodup := List.Nodup.of_map _ hids
    have hmatching := (select.perm (ledger.tally.rows.filter (query.selects tallyType datetime)))
    have hfilter := hids.filter_eq true hvisited
    rw [if_pos rfl] at hfilter
    refine .inr ⟨ledger.tally.rows.filter (·.id ∉ visited.map (·.id)), List.filter_sublist, ?_, ?_⟩
    · rw [hfilter]
      apply (List.perm_ext_iff_of_nodup (hnodup.filter _)
        ((hmatching.nodup_iff.mpr (hnodup.filter _)).sublist hsublist)).mpr
      intro row
      rw [List.mem_filter, decide_eq_true_eq, List.mem_filter]
      constructor
      · intro hrow
        apply not_not.mp
        intro hnot
        exact hrow.2 ⟨hrow.1, by simp [hnot]⟩
      · intro hrow
        exact ⟨hvisited row hrow, fun hkept => by simp [hrow] at hkept⟩
    · rw [hdeleted]

namespace CounterLedger.Conserved

theorem storeEvent (h : ledger.Conserved glib order) {increment : TallyIncrement}
    (hcounter : increment.counter ≤ gMaxuint32) {stored : CounterLedger}
    (hstored : ledger.storeEvent faults increment = .ok stored) : stored.Conserved glib order := by
  cases storeEvent_cases hstored with
  | inl hsame => rwa [hsame]
  | inr hnew =>
    obtain ⟨htally, rfl⟩ := hnew
    have hcases := upsert_cases (nextRowId ledger.tally.rows) increment.key
      (.integer increment.counter) ledger.tally.rows
    constructor
    · exact h.rowIds.storeEvent htally
    · show ((upsert _ _ _ ledger.tally.rows).map (·.key)).Nodup
      cases hcases with
      | inl hfound =>
        obtain ⟨front, row, rest, hrows, -, heq⟩ := hfound
        have hkeys := h.keys
        rw [hrows] at hkeys
        rw [heq]
        simpa using hkeys
      | inr hnew =>
        rw [hnew.2, List.map_append]
        apply List.Nodup.append h.keys (List.nodup_singleton _)
        exact List.disjoint_singleton.mpr hnew.1
    · show Dealt _ (upsert _ _ _ ledger.tally.rows ++ _) (ledger.stored ++ [increment])
      have hdealt := h.dealt
      cases hcases with
      -- the row that has the key sums up one counter more
      | inl hfound =>
        obtain ⟨front, row, rest, hrows, hkey, heq⟩ := hfound
        rw [hrows, List.append_assoc] at hdealt
        rw [heq, List.append_assoc]
        exact hdealt.grow fun calls hcalls => hcalls.add hkey hcounter
      -- or a row of its own is added to the others
      | inr hnew =>
        have hrow := dealt_singleton (TallyRow.sumsUp_singleton (nextRowId ledger.tally.rows)
          hcounter)
        rw [hnew.2]
        apply (hdealt.append hrow).perm_rows
        rw [List.append_assoc, List.append_assoc]
        exact List.perm_append_comm.append_left ledger.tally.rows
    · exact h.handedOver
    · intro args hargs
      obtain ⟨row, calls, heq, hsums, hcalls⟩ := h.genuine args hargs
      exact ⟨row, calls, heq, hsums,
        hcalls.trans (List.sublist_append_left ledger.stored [increment]).subperm⟩

/-- Taking rows out of the table, handing over what is visited. -/
theorem takeOut (h : ledger.Conserved glib order) {kept visited deleted cleared : List TallyRow}
    (hkept : kept.Sublist ledger.tally.rows) (hvisited : ∀ row ∈ visited, row ∈ ledger.tally.rows)
    (hgone : (deleted ++ cleared).Perm (ledger.tally.rows.filter (· ∉ kept)))
    (hdeleted : deleted.Subperm visited) :
    ({ ledger with
      tally := ⟨kept⟩
      handedOver := ledger.handedOver ++ visited.map (rowArgs glib order)
      deleted := ledger.deleted ++ deleted
      cleared := ledger.cleared ++ cleared } : CounterLedger).Conserved glib order where
  rowIds := h.rowIds.sublist (hkept.map _)
  keys := h.keys.sublist (hkept.map _)
  dealt := by
    apply h.dealt.perm_rows
    have hrows := (hgone.append_left kept).trans
      (perm_append_filter hkept (List.Nodup.of_map _ h.rowIds))
    calc (kept ++ (ledger.deleted ++ deleted ++ (ledger.cleared ++ cleared))).Perm
          (kept ++ ((deleted ++ cleared) ++ (ledger.deleted ++ ledger.cleared))) := by
          apply List.Perm.append_left
          simp only [← Multiset.coe_eq_coe, ← Multiset.coe_add]
          abel
      _ |>.Perm (ledger.tally.rows ++ (ledger.deleted ++ ledger.cleared)) := by
          rw [← List.append_assoc]
          exact hrows.append_right _
  handedOver := by
    obtain ⟨found, hfound, hsublist⟩ := hdeleted
    show ((ledger.deleted ++ deleted).map _).Subperm (ledger.handedOver ++ visited.map _)
    rw [List.map_append]
    exact h.handedOver.append ⟨found.map _, hfound.map _, hsublist.map _⟩
  genuine := by
    intro args hargs
    cases List.mem_append.mp hargs with
    | inl hold => exact h.genuine args hold
    -- a row that is visited stands in the table
    | inr hnew =>
      obtain ⟨row, hrow, heq⟩ := List.mem_map.mp hnew
      obtain ⟨calls, hsums, hcalls⟩ :=
        h.dealt.exists_group (List.mem_append_left _ (hvisited row hrow))
      exact ⟨row, calls, heq, hsums, hcalls⟩

theorem iterate (h : ledger.Conserved glib order) (query : TallyQuery) (tallyType : EmerTallyType)
    (datetime : GDateTime) :
    (ledger.iterate glib order select faults query tallyType datetime).Conserved glib order := by
  obtain ⟨visited, hvisited, hcases⟩ := iterate_cases glib order select faults h.rowIds query
    tallyType datetime
  cases hcases with
  | inl hfailed =>
    have hnone : ledger.tally.rows.filter (· ∉ ledger.tally.rows) = [] := by simp
    have hkept := @takeOut glib order ledger h ledger.tally.rows visited [] []
      (List.Sublist.refl _) hvisited (by rw [hnone]; exact List.Perm.refl _) List.nil_subperm
    rw [hfailed.2]
    simpa using hkept
  | inr hdeleted =>
    obtain ⟨kept, hkept, hgone, heq⟩ := hdeleted
    have htaken := @takeOut glib order ledger h kept visited _ [] hkept hvisited
      (by rw [List.append_nil]) hgone.subperm
    rw [heq]
    simpa using htaken

theorem clear (h : ledger.Conserved glib order) : (ledger.clear faults).Conserved glib order := by
  have hgone : (ledger.tally.rows.filter (· ∉ (ledger.tally.clearUnder faults.clear).rows)) =
      [] ++ ledger.tally.rows.filter (· ∉ (ledger.tally.clearUnder faults.clear).rows) := rfl
  have hkept : (ledger.tally.clearUnder faults.clear).rows.Sublist ledger.tally.rows := by
    unfold clearUnder
    cases faults.clear with
    | none => exact List.nil_sublist _
    | some failure => exact List.Sublist.refl _
  have htaken := @takeOut glib order ledger h _ [] [] _ hkept
    (fun row hrow => absurd hrow List.not_mem_nil) (List.Perm.of_eq hgone.symm) List.nil_subperm
  rw [List.map_nil, List.append_nil, List.append_nil] at htaken
  exact htaken

theorem bufferPastAggregateEvents (h : ledger.Conserved glib order) (now : GDateTime) :
    (ledger.bufferPastAggregateEvents glib order select faults now).Conserved glib order :=
  (h.iterate .iterBefore .dailyEvents now).iterate .iterBefore .monthlyEvents now

end CounterLedger.Conserved

variable (glib order select faults) in
theorem keptByTally_conserved :
    KeptByTally (CounterLedger.tallyOps glib order select faults)
      (CounterLedger.Conserved glib order) where
  storeEvent := fun h hcounter hstored => h.storeEvent hcounter hstored
  iter := fun tallyType datetime h => h.iterate .iter tallyType datetime
  clear := fun h => h.clear

/-- What has been handed over is what has been deleted. -/
def CounterLedger.HandedOverOnce (glib : VariantLibrary) (order : ByteOrder)
    (ledger : CounterLedger) : Prop :=
  (ledger.deleted.map (rowArgs glib order)).Perm ledger.handedOver

theorem CounterLedger.HandedOverOnce.iterate (h : ledger.HandedOverOnce glib order)
    (hids : ledger.tally.HasRowIds) {tallyType : EmerTallyType}
    (hfault : faults.iter tallyType = .none) (query : TallyQuery) (datetime : GDateTime) :
    (ledger.iterate glib order select faults query tallyType datetime).HandedOverOnce glib
      order := by
  obtain ⟨visited, -, hcases⟩ :=
    iterate_cases glib order select faults hids query tallyType datetime
  cases hcases with
  | inl hfailed => exact absurd hfault hfailed.1
  | inr hdeleted =>
    obtain ⟨kept, -, hgone, heq⟩ := hdeleted
    rw [heq]
    show ((ledger.deleted ++ _).map _).Perm (ledger.handedOver ++ _)
    rw [List.map_append]
    exact h.append (hgone.map _)

theorem CounterLedger.HandedOverOnce.bufferPastAggregateEvents
    (h : ledger.HandedOverOnce glib order) (hconserved : ledger.Conserved glib order)
    (hfaults : ∀ tallyType, faults.iter tallyType = .none) (now : GDateTime) :
    (ledger.bufferPastAggregateEvents glib order select faults now).HandedOverOnce glib order := by
  have hdaily : (ledger.iterate glib order select faults .iterBefore .dailyEvents now).Conserved
      glib order := hconserved.iterate .iterBefore .dailyEvents now
  exact (h.iterate hconserved.rowIds (hfaults .dailyEvents) .iterBefore now).iterate
    hdaily.rowIds (hfaults .monthlyEvents) .iterBefore now

/-- When no iteration fails. -/
theorem keptByTally_handedOverOnce (hfaults : ∀ tallyType, faults.iter tallyType = .none) :
    KeptByTally (CounterLedger.tallyOps glib order select faults) fun ledger =>
      ledger.Conserved glib order ∧ ledger.HandedOverOnce glib order where
  storeEvent := by
    intro ledger stored increment h hcounter hstored
    refine ⟨h.1.storeEvent hcounter hstored, ?_⟩
    cases CounterLedger.storeEvent_cases hstored with
    | inl hsame =>
      rw [hsame]
      exact h.2
    | inr hnew =>
      rw [hnew.2]
      exact h.2
  iter := fun tallyType datetime h =>
    ⟨h.1.iterate .iter tallyType datetime,
      h.2.iterate h.1.rowIds (hfaults tallyType) .iter datetime⟩
  clear := fun h => ⟨h.1.clear, h.2⟩

end Operations

/-! ## 6. Whole lives -/

section Lives

variable {glib : VariantLibrary} {order : ByteOrder} {select : SelectOrder}
  {sha1 : Bytes → Text → Bytes} {P : CounterLedger → Prop}

/-- The registry goes on, and its tally meets a law. -/
def GoesOnWith (P : CounterLedger → Prop) (r : Option (TimerRegistry CounterLedger)) : Prop :=
  ∃ registry, r = some registry ∧ registry.Consistent ∧ P registry.aggregateTally

/-- **Step lemma.**  A law of the operations is a law of the daemon's lives. -/
theorem GoesOnWith.ledgerStep {r : Option (TimerRegistry CounterLedger)} (h : GoesOnWith P r)
    {event : TallyFaults × LedgerEvent}
    (hops : KeptByTally (CounterLedger.tallyOps glib order select event.1) P)
    (hpast : ∀ ledger now, P ledger →
      P (ledger.bufferPastAggregateEvents glib order select event.1 now)) :
    GoesOnWith P (EventRecorder.ledgerStep glib order select sha1 r event) := by
  obtain ⟨registry, rfl, hconsistent, hlaw⟩ := h
  obtain ⟨faults, event⟩ := event
  cases event with
  | timer timerEvent =>
    exact hops.handleTimerEvent sha1 hconsistent hlaw timerEvent
  | restart recordingEnabled now =>
    exact ⟨_, rfl, consistent_new recordingEnabled now _, hpast _ now hlaw⟩

theorem CounterLedger.conserved_empty : CounterLedger.empty.Conserved glib order :=
  ⟨List.nodup_nil, List.nodup_nil, dealt_nil, List.Subperm.refl [],
    fun _ hargs => absurd hargs List.not_mem_nil⟩

variable (glib order select sha1)

/-- **No counter is lost.**  Whatever statements fail and however often the daemon starts anew, no
assertion fails and the counters that were stored are those of the rows. -/
theorem counters_never_lost (recordingEnabled : Bool) (date : GDateTime)
    (es : List (TallyFaults × LedgerEvent)) :
    Throughout (ledgerStep glib order select sha1)
      (GoesOnWith (CounterLedger.Conserved glib order))
      (some (timerRegistryNew recordingEnabled date CounterLedger.empty)) es := by
  apply throughout_of_invariant
  · intro r event h
    exact h.ledgerStep (keptByTally_conserved glib order select event.1)
      fun ledger now hledger => hledger.bufferPastAggregateEvents now
  · exact ⟨_, rfl, consistent_new recordingEnabled date _, CounterLedger.conserved_empty⟩

/-- **Counters are handed over once.**  As long as no iteration fails, the rows that were deleted
are those that were handed over, each once. -/
theorem counters_handed_over_once (recordingEnabled : Bool) (date : GDateTime)
    {es : List (TallyFaults × LedgerEvent)}
    (hfaults : ∀ event ∈ es, ∀ tallyType, event.1.iter tallyType = .none) :
    Throughout (ledgerStep glib order select sha1)
      (GoesOnWith fun ledger =>
        ledger.Conserved glib order ∧ ledger.HandedOverOnce glib order)
      (some (timerRegistryNew recordingEnabled date CounterLedger.empty)) es := by
  have hok : EachStep (ledgerStep glib order select sha1)
      (fun _ event => ∀ tallyType, event.1.iter tallyType = .none)
      (some (timerRegistryNew recordingEnabled date CounterLedger.empty)) es := by
    intro pre event hpre
    exact hfaults event (hpre.subset (by simp))
  refine throughout_of_step ?_ ?_ hok
  · intro r event h hnofault
    apply h.ledgerStep (keptByTally_handedOverOnce hnofault)
    intro ledger now hledger
    exact ⟨hledger.1.bufferPastAggregateEvents now,
      hledger.2.bufferPastAggregateEvents hledger.1 hnofault now⟩
  · exact ⟨_, rfl, consistent_new recordingEnabled date _, CounterLedger.conserved_empty,
      List.Perm.refl []⟩

end Lives

/-- A timer that runs for five seconds before midnight, on a day without failures. -/
def fiveSeconds : List (TallyFaults × LedgerEvent) :=
  let start : StartAggregateTimer :=
    { senderName := ":1.7".toList, unixUserId := 1001,
      eventId := ⟨gVariantTypeBytestring, List.replicate 16 7⟩, hasPayload := false,
      payload := ⟨gVariantTypeVariant, []⟩, exported := true, monotonicTimeUs := 0 }
  [.startAggregateTimer start, .stopTimer 0 ⟨2021, 9, 22⟩ 5000000,
    .clockTickedMidnight 9000000 ⟨2021, 9, 23⟩ ⟨2021, 9, 23⟩].map fun event =>
      (⟨fun _ => none, fun _ => .none, none⟩, .timer event)

theorem counters_handed_over_once_fiveSeconds :
    Throughout (ledgerStep unswappedVariants .little .byRowId fun id _ => id)
      (GoesOnWith fun ledger =>
        ledger.Conserved unswappedVariants .little ∧
          ledger.HandedOverOnce unswappedVariants .little)
      (some (timerRegistryNew true ⟨2021, 9, 22⟩ CounterLedger.empty)) fiveSeconds :=
  counters_handed_over_once unswappedVariants .little .byRowId (fun id _ => id) true ⟨2021, 9, 22⟩
    (by
      intro event hmem tallyType
      obtain ⟨_, -, rfl⟩ := List.mem_map.mp hmem
      rfl)

/-- The five seconds have left the table for the daily aggregates, and still stand in the monthly
row. -/
example :
    (run (ledgerStep unswappedVariants .little .byRowId fun id _ => id)
      (some (timerRegistryNew true ⟨2021, 9, 22⟩ CounterLedger.empty)) fiveSeconds).map
      (fun r => (r.aggregateTally.handedOver.map (·.counter),
        r.aggregateTally.tally.rows.map (·.counter))) = some ([5], [.integer 5]) := by
  decide

end EventRecorder
