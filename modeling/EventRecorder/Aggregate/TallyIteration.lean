import EventRecorder.Aggregate.Tally

/-!
# Stopping an iteration of the tally

A callback may stop an iteration, and the flags may ask for the visited rows to be deleted.  The
iteration is one return expression over the last code of SQLite, which is not that of an end when
the callback has stopped it: the rows are visited as they should be, but an error is reported and
none of them is deleted.
-/

namespace EventRecorder

open EmerAggregateTally

/-! ## 1. What an iteration is for -/

/-- The two public iterations. -/
inductive TallyQuery where
  | iter
  | iterBefore
  deriving DecidableEq, Repr

/-- The rows that match the query for the period of a date. -/
def TallyQuery.selects (query : TallyQuery) (tallyType : EmerTallyType) (datetime : GDateTime)
    (row : TallyRow) : Bool :=
  match query with
  | .iter => row.key.date = formatDatetimeForTallyType datetime tallyType
  | .iterBefore =>
    row.key.date.length = (formatDatetimeForTallyType datetime tallyType).length ∧
      row.key.date < formatDatetimeForTallyType datetime tallyType

/-- The rows that match, in the order in which SQLite answers them. -/
def TallyQuery.matching (query : TallyQuery) (select : SelectOrder) (tallyType : EmerTallyType)
    (datetime : GDateTime) (tally : EmerAggregateTally) : List TallyRow :=
  select.reorder (tally.rows.filter (query.selects tallyType datetime))

section Iteration

variable {σ : Type*} (glib : VariantLibrary) (order : ByteOrder)
  (func : σ → TallyIterArgs → EmerTallyIterResult × σ) (delete : Bool)

def TallyQuery.run (query : TallyQuery) (select : SelectOrder) (tallyType : EmerTallyType)
    (datetime : GDateTime) (state : σ) (tally : EmerAggregateTally) :
    Option EmerSqliteError × EmerAggregateTally × σ :=
  match query with
  | .iter => tally.iter glib order func delete select tallyType datetime state
  | .iterBefore => tally.iterBefore glib order func delete select tallyType datetime state

/-- The callback, with the calls to it kept beside its state. -/
def recording (state : σ × List TallyIterArgs) (args : TallyIterArgs) :
    EmerTallyIterResult × σ × List TallyIterArgs :=
  ((func state.1 args).1, (func state.1 args).2, state.2 ++ [args])

/-- The state of the callback after a row. -/
def afterRow (state : σ) (row : TallyRow) : σ := (func state (rowArgs glib order row)).2

/-- The callback stops at the row. -/
def StopsAt (state : σ) (row : TallyRow) : Prop :=
  (func state (rowArgs glib order row)).1 = .iterStop

instance (state : σ) (row : TallyRow) : Decidable (StopsAt glib order func state row) :=
  inferInstanceAs (Decidable (_ = _))

/-- The rows up to and including the first one at which the callback stops. -/
def visitedRows : List TallyRow → σ → List TallyRow
  | [], _ => []
  | row :: rows, state =>
    if StopsAt glib order func state row then [row]
    else row :: visitedRows rows (afterRow glib order func state row)

/-- The callback stops at none of the rows. -/
def NeverStops : List TallyRow → σ → Prop
  | [], _ => True
  | row :: rows, state =>
    ¬ StopsAt glib order func state row ∧ NeverStops rows (afterRow glib order func state row)

/-- The iteration calls the callback on the rows up to its first stop and no others, reports no
error, and deletes these rows when it is asked to. -/
def HonoursStopAndDelete (query : TallyQuery) (select : SelectOrder) (tallyType : EmerTallyType)
    (datetime : GDateTime) (state : σ) (tally : EmerAggregateTally) : Prop :=
  let visited := visitedRows glib order func (query.matching select tallyType datetime tally) state
  query.run glib order (recording func) delete select tallyType datetime (state, []) tally =
    (none,
      ⟨tally.rows.filter fun row => ¬ (delete = true ∧ row ∈ visited)⟩,
      visited.foldl (afterRow glib order func) state,
      visited.map (rowArgs glib order))

/-! ## 2. The loop -/

section Loop

variable {glib order func delete}

theorem visitedRows_sublist (rows : List TallyRow) (state : σ) :
    (visitedRows glib order func rows state).Sublist rows := by
  induction rows generalizing state with
  | nil => exact List.Sublist.refl _
  | cons row rows ih =>
    rw [visitedRows]
    split
    · exact List.Sublist.cons_cons row (List.nil_sublist rows)
    · exact List.Sublist.cons_cons row (ih _)

theorem iterRows_stop {row : TallyRow} (rows : List TallyRow) {state : σ}
    (hstop : StopsAt glib order func state row) :
    iterRows glib order func delete (row :: rows) state =
      (sqliteRow, (if delete then [row.id] else []), afterRow glib order func state row) :=
  if_pos hstop

theorem iterRows_continue {row : TallyRow} (rows : List TallyRow) {state : σ}
    (hstop : ¬ StopsAt glib order func state row) :
    iterRows glib order func delete (row :: rows) state =
      ((iterRows glib order func delete rows (afterRow glib order func state row)).1,
        (if delete then [row.id] else []) ++
          (iterRows glib order func delete rows (afterRow glib order func state row)).2.1,
        (iterRows glib order func delete rows (afterRow glib order func state row)).2.2) :=
  if_neg hstop

/-- The last code is that of the end exactly when the callback has not stopped the loop. -/
theorem iterRows_ret (rows : List TallyRow) (state : σ) :
    (iterRows glib order func delete rows state).1 = sqliteDone ↔
      NeverStops glib order func rows state := by
  induction rows generalizing state with
  | nil => exact iff_of_true rfl trivial
  | cons row rows ih =>
    rw [NeverStops]
    by_cases hstop : StopsAt glib order func state row
    · apply iff_of_false
      · rw [iterRows_stop rows hstop]
        exact show ¬ sqliteRow = sqliteDone by decide
      · exact fun h => h.1 hstop
    · rw [iterRows_continue rows hstop, ih]
      exact (and_iff_right hstop).symm

theorem iterRows_rowsToDelete (rows : List TallyRow) (state : σ) :
    (iterRows glib order func delete rows state).2.1 =
      if delete then (visitedRows glib order func rows state).map (·.id) else [] := by
  induction rows generalizing state with
  | nil =>
    rw [iterRows, visitedRows, List.map_nil, ite_self]
  | cons row rows ih =>
    rw [visitedRows]
    by_cases hstop : StopsAt glib order func state row
    · rw [iterRows_stop rows hstop, if_pos hstop]
      rfl
    · rw [iterRows_continue rows hstop, if_neg hstop, ih]
      cases delete with
      | false => rfl
      | true => rfl

/-- The callback is called on the visited rows, one after the other. -/
theorem iterRows_state (rows : List TallyRow) (state : σ) :
    (iterRows glib order func delete rows state).2.2 =
      (visitedRows glib order func rows state).foldl (afterRow glib order func) state := by
  induction rows generalizing state with
  | nil => rfl
  | cons row rows ih =>
    rw [visitedRows]
    by_cases hstop : StopsAt glib order func state row
    · rw [iterRows_stop rows hstop, if_pos hstop]
      rfl
    · rw [iterRows_continue rows hstop, if_neg hstop, List.foldl_cons]
      exact ih _

/-- What is kept beside the state are the calls for the rows. -/
theorem foldl_afterRow_recording (rows : List TallyRow) (state : σ)
    (calls : List TallyIterArgs) :
    rows.foldl (afterRow glib order (recording func)) (state, calls) =
      (rows.foldl (afterRow glib order func) state, calls ++ rows.map (rowArgs glib order)) := by
  induction rows generalizing state calls with
  | nil =>
    rw [List.map_nil, List.append_nil]
    rfl
  | cons row rows ih =>
    show rows.foldl _ (afterRow glib order func state row, calls ++ [rowArgs glib order row]) = _
    rw [ih, List.map_cons, List.append_assoc]
    rfl

/-- Keeping the calls changes neither where the callback stops nor what it visits. -/
theorem neverStops_recording (rows : List TallyRow) (state : σ) (calls : List TallyIterArgs) :
    NeverStops glib order (recording func) rows (state, calls) ↔
      NeverStops glib order func rows state := by
  induction rows generalizing state calls with
  | nil => exact Iff.rfl
  | cons row rows ih => exact and_congr Iff.rfl (ih _ _)

theorem visitedRows_recording (rows : List TallyRow) (state : σ) (calls : List TallyIterArgs) :
    visitedRows glib order (recording func) rows (state, calls) =
      visitedRows glib order func rows state := by
  induction rows generalizing state calls with
  | nil => rfl
  | cons row rows ih =>
    have hiff : StopsAt glib order (recording func) (state, calls) row ↔
        StopsAt glib order func state row := Iff.rfl
    rw [visitedRows, visitedRows]
    by_cases hstop : StopsAt glib order func state row
    · rw [if_pos hstop, if_pos (hiff.mpr hstop)]
    · rw [if_neg hstop, if_neg (fun h => hstop (hiff.mp h))]
      exact congrArg (row :: ·) (ih _ _)

theorem iterRows_recording (rows : List TallyRow) (state : σ) :
    (iterRows glib order (recording func) delete rows (state, [])).2.2 =
      ((visitedRows glib order func rows state).foldl (afterRow glib order func) state,
        (visitedRows glib order func rows state).map (rowArgs glib order)) := by
  rw [iterRows_state, visitedRows_recording, foldl_afterRow_recording, List.nil_append]

end Loop

/-! ## 3. The rows deleted -/

/-- `INTEGER PRIMARY KEY`: no two rows have one ID. -/
def EmerAggregateTally.HasRowIds (tally : EmerAggregateTally) : Prop :=
  (tally.rows.map (·.id)).Nodup

theorem lt_nextRowId {rows : List TallyRow} {row : TallyRow} (hmem : row ∈ rows) :
    row.id < nextRowId rows := by
  have hfold : ∀ (rows : List TallyRow) (largest : Nat),
      largest ≤ rows.foldl (fun id row => max id row.id) largest ∧
        ∀ row ∈ rows, row.id ≤ rows.foldl (fun id row => max id row.id) largest := by
    intro rows
    induction rows with
    | nil => exact fun largest => ⟨Nat.le_refl _, fun _ h => absurd h List.not_mem_nil⟩
    | cons first rows ih =>
      intro largest
      obtain ⟨hlargest, hrows⟩ := ih (max largest first.id)
      rw [List.foldl_cons]
      refine ⟨by omega, ?_⟩
      intro row hrow
      cases List.mem_cons.mp hrow with
      | inl h =>
        rw [h]
        omega
      | inr h => exact hrows row h
  have hle := (hfold rows 0).2 row hmem
  rw [nextRowId]
  omega

theorem map_id_upsert (id : Nat) (key : TallyKey) (counter : SqlNumber) (rows : List TallyRow) :
    (upsert id key counter rows).map (·.id) = rows.map (·.id) ∨
      (upsert id key counter rows).map (·.id) = rows.map (·.id) ++ [id] := by
  induction rows with
  | nil => exact .inr rfl
  | cons row rows ih =>
    rw [upsert]
    by_cases hkey : row.key = key
    · rw [if_pos hkey]
      exact .inl rfl
    · rw [if_neg hkey]
      exact ih.imp (congrArg (row.id :: ·)) (congrArg (row.id :: ·))

theorem EmerAggregateTally.HasRowIds.storeEvent {tally stored : EmerAggregateTally}
    (hids : tally.HasRowIds) {increment : TallyIncrement}
    (hstored : tally.storeEvent increment = .ok stored) : stored.HasRowIds := by
  unfold EmerAggregateTally.storeEvent at hstored
  split at hstored
  · cases hstored
    exact hids
  · split at hstored
    · cases hstored
    · cases hstored
      show ((upsert _ _ _ tally.rows).map (·.id)).Nodup
      cases map_id_upsert (nextRowId tally.rows) increment.key (.integer increment.counter)
          tally.rows with
      | inl hsame =>
        rw [hsame]
        exact hids
      | inr hnew =>
        rw [hnew]
        apply List.nodup_append'.mpr
        refine ⟨hids, List.nodup_singleton _, ?_⟩
        -- the ID of a new row is that of no other
        apply List.disjoint_singleton.mpr
        intro hid
        obtain ⟨row, hrow, heq⟩ := List.mem_map.mp hid
        exact absurd (lt_nextRowId hrow) (by rw [heq]; exact Nat.lt_irrefl _)

theorem EmerAggregateTally.HasRowIds.filter {tally : EmerAggregateTally} (hids : tally.HasRowIds)
    (keep : TallyRow → Bool) : EmerAggregateTally.HasRowIds ⟨tally.rows.filter keep⟩ :=
  hids.sublist (List.filter_sublist.map _)

/-- The IDs of rows of the table name these rows only. -/
theorem EmerAggregateTally.HasRowIds.filter_eq {tally : EmerAggregateTally}
    (hids : tally.HasRowIds) {rows : List TallyRow} (hrows : ∀ row ∈ rows, row ∈ tally.rows) :
    tally.rows.filter (·.id ∉ if delete then rows.map (·.id) else []) =
      tally.rows.filter fun row => ¬ (delete = true ∧ row ∈ rows) := by
  cases delete with
  | false => simp
  | true =>
    apply List.filter_congr
    intro row hmem
    have hiff : row.id ∈ rows.map (·.id) ↔ row ∈ rows := by
      constructor
      · intro hid
        obtain ⟨other, hother, heq⟩ := List.mem_map.mp hid
        rw [← List.inj_on_of_nodup_map hids (hrows other hother) hmem heq]
        exact hother
      · exact List.mem_map_of_mem
    simp [hiff]

theorem TallyQuery.run_eq (query : TallyQuery) (select : SelectOrder) (tallyType : EmerTallyType)
    (datetime : GDateTime) (state : σ) (tally : EmerAggregateTally) :
    query.run glib order func delete select tallyType datetime state tally =
      let loop := iterRows glib order func delete
        (query.matching select tallyType datetime tally) state
      if loop.1 ≠ sqliteDone then (some ⟨loop.1⟩, tally, loop.2.2)
      else (none, ⟨tally.rows.filter (·.id ∉ loop.2.1)⟩, loop.2.2) := by
  cases query with
  | iter => rfl
  | iterBefore => rfl

theorem TallyQuery.mem_of_matching {query : TallyQuery} {select : SelectOrder}
    {tallyType : EmerTallyType} {datetime : GDateTime} {tally : EmerAggregateTally}
    {row : TallyRow} (hmem : row ∈ query.matching select tallyType datetime tally) :
    row ∈ tally.rows :=
  List.mem_of_mem_filter ((select.perm _).mem_iff.mp hmem)

/-- **An iteration honours its callback's stop and its flags exactly when the callback does not
stop.** -/
theorem honoursStopAndDelete_iff (tally : EmerAggregateTally) (hids : tally.HasRowIds)
    (query : TallyQuery) (select : SelectOrder) (tallyType : EmerTallyType) (datetime : GDateTime)
    (state : σ) :
    HonoursStopAndDelete glib order func delete query select tallyType datetime state tally ↔
      NeverStops glib order func (query.matching select tallyType datetime tally) state := by
  have hret := (@iterRows_ret _ glib order (recording func) delete
    (query.matching select tallyType datetime tally) (state, [])).trans
      (neverStops_recording _ _ _)
  have hvisited := @iterRows_rowsToDelete _ glib order (recording func) delete
    (query.matching select tallyType datetime tally) (state, [])
  have hcalls := @iterRows_recording _ glib order func delete
    (query.matching select tallyType datetime tally) state
  rw [visitedRows_recording] at hvisited
  rw [HonoursStopAndDelete, TallyQuery.run_eq]
  dsimp only
  constructor
  · intro h
    apply hret.mp
    apply not_not.mp
    intro hstopped
    rw [if_pos hstopped] at h
    exact absurd (congrArg Prod.fst h) (Option.some_ne_none _)
  · intro hnever
    rw [if_neg (not_not.mpr (hret.mpr hnever)), hvisited, hcalls,
      hids.filter_eq delete fun row hrow =>
        TallyQuery.mem_of_matching ((visitedRows_sublist _ _).subset hrow)]

end Iteration

/-- A callback that stops at once. -/
def stopAtOnce (calls : Nat) (_ : TallyIterArgs) : EmerTallyIterResult × Nat :=
  (.iterStop, calls + 1)

/-- Two rows for a day, and one for its month. -/
def dayAndMonth : EmerAggregateTally :=
  ⟨[⟨1, ⟨"2021-09-22".toList, List.replicate 16 7, 1001, []⟩, .integer 5⟩,
    ⟨2, ⟨"2021-09".toList, List.replicate 16 7, 1001, []⟩, .integer 40⟩,
    ⟨3, ⟨"2021-09-22".toList, List.replicate 16 8, 1002, []⟩, .integer 60⟩]⟩

/-- A library without multi-byte numbers. -/
def unswappedVariants : VariantLibrary where
  getNormalForm variant := variant
  byteswap variant := variant
  isNormalForm _ := true
  typeStringIsValid _ := true

theorem stopAtOnce_not_honoured :
    ¬ HonoursStopAndDelete unswappedVariants .little stopAtOnce true .iter .byRowId .dailyEvents
      ⟨2021, 9, 22⟩ 0 dayAndMonth := by
  intro h
  exact absurd (congrArg Prod.fst h) (by decide)

theorem honoursStopAndDelete_iff_dayAndMonth :
    HonoursStopAndDelete unswappedVariants .little collect true .iter .byRowId .dailyEvents
      ⟨2021, 9, 22⟩ [] dayAndMonth :=
  (honoursStopAndDelete_iff unswappedVariants .little collect true dayAndMonth
    (by unfold HasRowIds; decide) .iter .byRowId .dailyEvents ⟨2021, 9, 22⟩ []).mpr
    ⟨by decide, by decide, trivial⟩

/-- The row of the month stays. -/
example :
    (dayAndMonth.iter unswappedVariants .little collect true .byRowId .dailyEvents ⟨2021, 9, 22⟩
      []).2.1.rows.map (·.id) = [2] := by
  decide

end EventRecorder
