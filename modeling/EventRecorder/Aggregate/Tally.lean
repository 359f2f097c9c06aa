import EventRecorder.Aggregate.Timer
import EventRecorder.Theory.Accumulate

/-!
# The aggregate tally

The tally is one table of a SQLite database.  Daily and monthly rows share it and are told apart by
the text of their dates, and the absence of a payload is stored as an empty blob.  The statements
succeed; in which order a query answers its rows is a parameter.
-/

namespace EventRecorder

open Theory

/-- The type string `v`. -/
def gVariantTypeVariant : Bytes := [118]

/-- The variant that is little-endian when this machine's own byte order is that of the variant. -/
def swapBytesIfBigEndian (glib : VariantLibrary) (order : ByteOrder) (variant : GVariant) :
    GVariant :=
  match order with
  | .little => variant
  | .big => glib.byteswap variant

/-! ## 1. The table -/

/-- An integer column.  An addition that overflows 64 bits answers a floating-point number, which is
beyond every integer from then on. -/
inductive SqlNumber where
  | integer (value : Int)
  | real
  deriving DecidableEq, Repr

def SqlNumber.add : SqlNumber → SqlNumber → SqlNumber
  | .integer a, .integer b => if a + b < 2 ^ 63 then .integer (a + b) else .real
  | _, _ => .real

/-- The columns of the unique index. -/
structure TallyKey where
  date : Text
  eventId : Bytes
  unixUserId : Nat
  payload : Bytes
  deriving DecidableEq, Repr

structure TallyRow where
  id : Nat
  key : TallyKey
  counter : SqlNumber
  deriving DecidableEq, Repr

structure EmerAggregateTally where
  rows : List TallyRow
  deriving DecidableEq, Repr

/-- A query without `ORDER BY` may answer its rows in any order. -/
structure SelectOrder where
  reorder : List TallyRow → List TallyRow
  perm : ∀ rows, (reorder rows).Perm rows

/-- The rows as they stand in the table. -/
def SelectOrder.byRowId : SelectOrder where
  reorder rows := rows
  perm rows := List.Perm.refl rows

/-- `%m` and `%d` pad with a zero to two digits. -/
def twoDigits (n : Nat) : Text :=
  if n < 10 then '0' :: Nat.toDigits 10 n else Nat.toDigits 10 n

/-- `%Y` is not padded. -/
def formatDatetimeForTallyType (datetime : GDateTime) (tallyType : EmerTallyType) : Text :=
  match tallyType with
  | .dailyEvents =>
    Nat.toDigits 10 datetime.year ++
      '-' :: (twoDigits datetime.month ++ '-' :: twoDigits datetime.dayOfMonth)
  | .monthlyEvents => Nat.toDigits 10 datetime.year ++ '-' :: twoDigits datetime.month

/-! ## 2. Storing -/

/-- `SQLITE_CONSTRAINT_CHECK`. -/
def sqliteConstraintCheck : Int := 275

def TallyIncrement.key (increment : TallyIncrement) : TallyKey where
  date := formatDatetimeForTallyType increment.datetime increment.tallyType
  eventId := increment.eventId
  unixUserId := increment.unixUserId
  payload :=
    match increment.payload with
    | some payload => payload.data
    | none => []

namespace EmerAggregateTally

variable (self : EmerAggregateTally)

/-- The ID after the largest one. -/
def nextRowId (rows : List TallyRow) : Nat :=
  rows.foldl (fun id row => max id row.id) 0 + 1

/-- `INSERT ... ON CONFLICT ... DO UPDATE SET counter = tally.counter + excluded.counter`. -/
def upsert (id : Nat) (key : TallyKey) (counter : SqlNumber) : List TallyRow → List TallyRow
  | [] => [⟨id, key, counter⟩]
  | row :: rows =>
    if row.key = key then { row with counter := row.counter.add counter } :: rows
    else row :: upsert id key counter rows

def storeEvent (increment : TallyIncrement) : Except EmerSqliteError EmerAggregateTally :=
  -- a payload of another type is a programming error, which stores nothing and sets no error
  if increment.payload.any (·.typeString ≠ gVariantTypeVariant) then .ok self
  else if increment.eventId.length ≠ uuidLength then .error ⟨sqliteConstraintCheck⟩
  else
    .ok ⟨upsert (nextRowId self.rows) increment.key (.integer increment.counter) self.rows⟩

end EmerAggregateTally

/-! ## 3. Iterating -/

inductive EmerTallyIterResult where
  | iterContinue
  | iterStop
  deriving DecidableEq, Repr

/-- The arguments of an `EmerTallyIterFunc`. -/
structure TallyIterArgs where
  unixUserId : Nat
  eventId : Bytes
  payload : Option GVariant
  counter : Nat
  date : Text
  deriving DecidableEq, Repr

/-- A blob of another size leaves the ID of zeros. -/
def columnToUuid (blob : Bytes) : Bytes :=
  if blob.length = uuidLength then blob else List.replicate uuidLength 0

/-- A blob without bytes is a null pointer. -/
def columnToVariant (glib : VariantLibrary) (order : ByteOrder) (blob : Bytes) : Option GVariant :=
  if blob = [] then none
  else some (swapBytesIfBigEndian glib order ⟨gVariantTypeVariant, blob⟩)

/-- `CLAMP (number, 0, G_MAXUINT32)`. -/
def columnToUint32 : SqlNumber → Nat
  | .integer number => min number.toNat gMaxuint32
  | .real => gMaxuint32

def rowArgs (glib : VariantLibrary) (order : ByteOrder) (row : TallyRow) : TallyIterArgs where
  unixUserId := columnToUint32 (.integer row.key.unixUserId)
  eventId := columnToUuid row.key.eventId
  payload := columnToVariant glib order row.key.payload
  counter := columnToUint32 row.counter
  date := row.key.date

def sqliteRow : Int := 100
def sqliteDone : Int := 101

namespace EmerAggregateTally

variable (self : EmerAggregateTally)

section Iterate

variable {σ : Type*} (glib : VariantLibrary) (order : ByteOrder)
  (func : σ → TallyIterArgs → EmerTallyIterResult × σ) (delete : Bool)

/-- The loop over the rows of a query: the last code of `sqlite3_step`, the rows to delete and the
state of the callback. -/
def iterRows : List TallyRow → σ → Int × List Nat × σ
  | [], state => (sqliteDone, [], state)
  | row :: rows, state =>
    let (result, state) := func state (rowArgs glib order row)
    let rowsToDelete := if delete then [row.id] else []
    if result = .iterStop then (sqliteRow, rowsToDelete, state)
    else
      let (ret, rest, state) := iterRows rows state
      (ret, rowsToDelete ++ rest, state)

/-- `emer_aggregate_tally_iter_internal` for the rows that a query selects, with the error that is
reported. -/
def iterInternal (select : SelectOrder) (query : TallyRow → Bool) (state : σ) :
    Option EmerSqliteError × EmerAggregateTally × σ :=
  let (ret, rowsToDelete, state) :=
    iterRows glib order func delete (select.reorder (self.rows.filter query)) state
  -- only a loop that has come to its end is no error
  if ret ≠ sqliteDone then (some ⟨ret⟩, self, state)
  else (none, ⟨self.rows.filter (·.id ∉ rowsToDelete)⟩, state)

/-- `WHERE date = ?`. -/
def iter (select : SelectOrder) (tallyType : EmerTallyType) (datetime : GDateTime) (state : σ) :
    Option EmerSqliteError × EmerAggregateTally × σ :=
  self.iterInternal glib order func delete select
    (·.key.date = formatDatetimeForTallyType datetime tallyType) state

/-- `WHERE length(date) = length(?1) AND date < ?1`. -/
def iterBefore (select : SelectOrder) (tallyType : EmerTallyType) (datetime : GDateTime)
    (state : σ) : Option EmerSqliteError × EmerAggregateTally × σ :=
  let date := formatDatetimeForTallyType datetime tallyType
  self.iterInternal glib order func delete select
    (fun row => row.key.date.length = date.length ∧ row.key.date < date) state

end Iterate

/-- `DELETE FROM tally`. -/
def clear (_ : EmerAggregateTally) : EmerAggregateTally := ⟨[]⟩

/-- A callback that always continues, and keeps what it is called with. -/
def collect (visited : List TallyIterArgs) (args : TallyIterArgs) :
    EmerTallyIterResult × List TallyIterArgs :=
  (.iterContinue, visited ++ [args])

/-! ## 4. What a callback that continues is called with -/

section Collect

variable (glib : VariantLibrary) (order : ByteOrder) (delete : Bool)

theorem iterRows_collect (rows : List TallyRow) (visited : List TallyIterArgs) :
    iterRows glib order collect delete rows visited =
      (sqliteDone, (if delete then rows.map (·.id) else []),
        visited ++ rows.map (rowArgs glib order)) := by
  induction rows generalizing visited with
  | nil => cases delete <;> simp [iterRows]
  | cons row rows ih =>
    rw [iterRows]
    simp only [collect, ih]
    cases delete <;> simp

theorem iterInternal_collect (select : SelectOrder) (query : TallyRow → Bool) :
    self.iterInternal glib order collect delete select query [] =
      (none,
        ⟨self.rows.filter
          (·.id ∉ if delete then (select.reorder (self.rows.filter query)).map (·.id) else [])⟩,
        (select.reorder (self.rows.filter query)).map (rowArgs glib order)) := by
  rw [iterInternal, iterRows_collect]
  simp

end Collect

end EmerAggregateTally

end EventRecorder
