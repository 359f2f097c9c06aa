import EventRecorder.Aggregate.Tally

/-!
# The tally sums by key

However the calls that store counters are ordered, an iteration visits one row for each user, event
and payload that was stored for the period, with the sum of its counters.
-/

namespace EventRecorder

open Theory EmerAggregateTally

/-- The two dates fall into one period of a tally type. -/
def EmerTallyType.SamePeriod (tallyType : EmerTallyType) (a b : GDateTime) : Prop :=
  match tallyType with
  | .dailyEvents => a = b
  | .monthlyEvents => a.year = b.year ∧ a.month = b.month

instance (tallyType : EmerTallyType) (a b : GDateTime) : Decidable (tallyType.SamePeriod a b) :=
  match tallyType with
  | .dailyEvents => inferInstanceAs (Decidable (a = b))
  | .monthlyEvents => inferInstanceAs (Decidable (_ ∧ _))

/-- What counters are summed by within a period. -/
structure AggregateKey where
  unixUserId : Nat
  eventId : Bytes
  payload : Option GVariant
  deriving DecidableEq, Repr

/-- The arguments are of their C types, and a payload is a variant in normal form. -/
structure TallyIncrement.IsStorable (glib : VariantLibrary) (increment : TallyIncrement) :
    Prop where
  eventId_length : increment.eventId.length = uuidLength
  unixUserId_le : increment.unixUserId ≤ gMaxuint32
  counter_le : increment.counter ≤ gMaxuint32
  payload_normal : ∀ payload ∈ increment.payload,
    payload.typeString = gVariantTypeVariant ∧ glib.isNormalForm payload = true

def TallyIncrement.aggregateKey (increment : TallyIncrement) : AggregateKey where
  unixUserId := increment.unixUserId
  eventId := increment.eventId
  payload := increment.payload

section Sums

variable (events : List TallyIncrement) (tallyType : EmerTallyType) (datetime : GDateTime)

/-- The calls for a type and the period of a date. -/
def storedFor : List TallyIncrement :=
  events.filter fun e => e.tallyType = tallyType ∧ tallyType.SamePeriod e.datetime datetime

def storedKeys : List AggregateKey :=
  ((storedFor events tallyType datetime).map (·.aggregateKey)).dedup

def counterSum (key : AggregateKey) : Nat :=
  (((storedFor events tallyType datetime).filter (·.aggregateKey = key)).map (·.counter)).sum

end Sums

/-- The calls one after the other, on a tally without rows. -/
def storeEvents (events : List TallyIncrement) : Except EmerSqliteError EmerAggregateTally :=
  events.foldlM storeEvent ⟨[]⟩

/-- What a callback that always continues is called with after the calls. -/
def visitedAfter (glib : VariantLibrary) (order : ByteOrder) (select : SelectOrder)
    (events : List TallyIncrement) (tallyType : EmerTallyType) (datetime : GDateTime) :
    Except EmerSqliteError (List TallyIterArgs) :=
  (storeEvents events).bind fun tally =>
    let (error, _, visited) := tally.iter glib order collect false select tallyType datetime []
    match error with
    | some e => .error e
    | none => .ok visited

/-! ## 1. The text of a date -/

theorem ofDigitChars_twoDigits (n : Nat) : Nat.ofDigitChars 10 (twoDigits n) 0 = n := by
  unfold twoDigits
  split
  · rw [Nat.ofDigitChars_cons]
    exact Nat.ofDigitChars_ten_toDigits
  · exact Nat.ofDigitChars_ten_toDigits

theorem twoDigits_injective : Function.Injective twoDigits := by
  intro m n h
  rw [← ofDigitChars_twoDigits m, h, ofDigitChars_twoDigits]

theorem toDigits_injective : Function.Injective (Nat.toDigits 10) := by
  intro m n h
  have hm : Nat.ofDigitChars 10 (Nat.toDigits 10 m) 0 = m := Nat.ofDigitChars_ten_toDigits
  rw [← hm, h, Nat.ofDigitChars_ten_toDigits]

theorem hyphen_notMem_toDigits (n : Nat) : '-' ∉ Nat.toDigits 10 n := by
  intro hmem
  have hdigit := toDigits_isDigit hmem
  exact absurd hdigit (by decide)

theorem hyphen_notMem_twoDigits (n : Nat) : '-' ∉ twoDigits n := by
  unfold twoDigits
  split
  · rw [List.mem_cons]
    intro hmem
    cases hmem with
    | inl h => exact absurd h (by decide)
    | inr h => exact hyphen_notMem_toDigits n h
  · exact hyphen_notMem_toDigits n

/-- What stands before the first hyphen, and what stands behind it. -/
theorem append_hyphen_inj {front front' rest rest' : Text} (hfront : '-' ∉ front)
    (hfront' : '-' ∉ front') (h : front ++ '-' :: rest = front' ++ '-' :: rest') :
    front = front' ∧ rest = rest' := by
  have htake : ∀ {t u : Text}, '-' ∉ t → (t ++ '-' :: u).takeWhile (· ≠ '-') = t := by
    intro t u ht
    rw [List.takeWhile_append_of_pos]
    · simp
    · intro c hc
      rw [decide_eq_true_eq]
      rintro rfl
      exact ht hc
  have heq : front = front' := by rw [← @htake front rest hfront, h, htake hfront']
  subst heq
  exact ⟨rfl, (List.cons.inj (List.append_cancel_left h)).2⟩

/-- The text tells the two types and their periods apart. -/
theorem formatDatetimeForTallyType_eq_iff (a b : GDateTime) (t u : EmerTallyType) :
    formatDatetimeForTallyType a t = formatDatetimeForTallyType b u ↔
      t = u ∧ t.SamePeriod a b := by
  have hyear := hyphen_notMem_toDigits
  constructor
  · intro h
    cases t with
    | dailyEvents =>
      cases u with
      | dailyEvents =>
        have hsplit := append_hyphen_inj (hyear a.year) (hyear b.year) h
        have hsplit' := append_hyphen_inj (hyphen_notMem_twoDigits a.month)
          (hyphen_notMem_twoDigits b.month) hsplit.2
        refine ⟨rfl, ?_⟩
        show a = b
        obtain ⟨year, month, day⟩ := a
        obtain ⟨year', month', day'⟩ := b
        rw [GDateTime.mk.injEq]
        exact ⟨toDigits_injective hsplit.1, twoDigits_injective hsplit'.1,
          twoDigits_injective hsplit'.2⟩
      -- only the text of a day has a second hyphen
      | monthlyEvents =>
        have hsplit := append_hyphen_inj (hyear a.year) (hyear b.year) h
        apply absurd _ (hyphen_notMem_twoDigits b.month)
        rw [← hsplit.2]
        simp
    | monthlyEvents =>
      cases u with
      | dailyEvents =>
        have hsplit := append_hyphen_inj (hyear a.year) (hyear b.year) h
        apply absurd _ (hyphen_notMem_twoDigits a.month)
        rw [hsplit.2]
        simp
      | monthlyEvents =>
        have hsplit := append_hyphen_inj (hyear a.year) (hyear b.year) h
        exact ⟨rfl, toDigits_injective hsplit.1, twoDigits_injective hsplit.2⟩
  · intro h
    obtain ⟨rfl, hperiod⟩ := h
    cases t with
    | dailyEvents =>
      obtain rfl : a = b := hperiod
      rfl
    | monthlyEvents =>
      show Nat.toDigits 10 a.year ++ '-' :: twoDigits a.month = _
      rw [hperiod.1, hperiod.2]
      rfl

/-! ## 2. The table sums -/

/-- A sum of counters, as the column holds it. -/
def SqlNumber.ofSum (sum : Nat) : SqlNumber :=
  if sum < 2 ^ 63 then .integer sum else .real

theorem SqlNumber.ofSum_add (a b : Nat) : ofSum (a + b) = (ofSum a).add (ofSum b) := by
  unfold ofSum
  by_cases ha : a < 2 ^ 63
  · by_cases hb : b < 2 ^ 63
    · rw [if_pos ha, if_pos hb, SqlNumber.add]
      by_cases hsum : a + b < 2 ^ 63
      · rw [if_pos hsum, if_pos (by omega)]
        rfl
      · rw [if_neg hsum, if_neg (by omega)]
    · rw [if_pos ha, if_neg hb, if_neg (by omega)]
      rfl
  · rw [if_neg ha, if_neg (by omega)]
    rfl

/-- A sum beyond 64 bits is beyond 32 bits as well. -/
theorem columnToUint32_ofSum (sum : Nat) : columnToUint32 (.ofSum sum) = min sum gMaxuint32 := by
  unfold SqlNumber.ofSum
  split
  · rfl
  · rw [columnToUint32, gMaxuint32]
    omega

/-- A row without its ID. -/
def TallyRow.entry (row : TallyRow) : TallyKey × SqlNumber := (row.key, row.counter)

theorem map_entry_upsert (id : Nat) (key : TallyKey) (counter : SqlNumber) (rows : List TallyRow) :
    (upsert id key counter rows).map TallyRow.entry =
      accumulate SqlNumber.add key counter (rows.map TallyRow.entry) := by
  induction rows with
  | nil => rfl
  | cons row rows ih =>
    rw [upsert, List.map_cons, accumulate]
    by_cases hkey : row.key = key
    · rw [if_pos hkey, if_pos (show row.entry.1 = key from hkey)]
      rfl
    · rw [if_neg hkey, if_neg (show ¬ row.entry.1 = key from hkey), List.map_cons, ih]

/-- A key is in the table once it was there before or is the one stored. -/
theorem mem_map_key_upsert (id : Nat) (key key' : TallyKey) (counter : SqlNumber)
    (rows : List TallyRow) :
    key' ∈ (upsert id key counter rows).map (·.key) ↔ key' ∈ rows.map (·.key) ∨ key' = key := by
  have hkeys := mem_keys_accumulate SqlNumber.add key key' counter (rows.map TallyRow.entry)
  rw [← map_entry_upsert id, List.map_map, List.map_map] at hkeys
  exact hkeys

/-- A call as an entry of the table. -/
def TallyIncrement.entry (increment : TallyIncrement) : TallyKey × Nat :=
  (increment.key, increment.counter)

section Stores

variable {glib : VariantLibrary}

theorem storeEvent_of_storable {increment : TallyIncrement} (h : increment.IsStorable glib)
    (tally : EmerAggregateTally) :
    tally.storeEvent increment =
      .ok ⟨upsert (nextRowId tally.rows) increment.key (.ofSum increment.counter) tally.rows⟩ := by
  have hcounter : SqlNumber.ofSum increment.counter = .integer increment.counter := by
    have hle := h.counter_le
    rw [gMaxuint32] at hle
    exact if_pos (by omega)
  have htype : increment.payload.any (·.typeString ≠ gVariantTypeVariant) = false := by
    have hnormal := h.payload_normal
    cases hpayload : increment.payload with
    | none => rfl
    | some payload => simp [(hnormal payload hpayload).1]
  rw [storeEvent, htype, if_neg Bool.false_ne_true, if_neg (not_not.mpr h.eventId_length), hcounter]

/-- **The rows of the table are the sums of the calls by their keys.** -/
theorem storeEvents_rows (events : List TallyIncrement)
    (hstorable : ∀ increment ∈ events, increment.IsStorable glib) :
    ∃ tally, storeEvents events = .ok tally ∧
      tally.rows.map TallyRow.entry =
        (accumulateAll (· + ·) (events.map TallyIncrement.entry)).map
          (Prod.map id SqlNumber.ofSum) := by
  induction events using List.reverseRecOn with
  | nil => exact ⟨⟨[]⟩, rfl, rfl⟩
  | append_singleton events increment ih =>
    obtain ⟨tally, hstored, hrows⟩ :=
      ih fun e he => hstorable e (List.mem_append_left _ he)
    have hlast : increment.IsStorable glib := hstorable increment (by simp)
    refine ⟨⟨upsert (nextRowId tally.rows) increment.key (.ofSum increment.counter) tally.rows⟩,
      ?_, ?_⟩
    · rw [storeEvents, List.foldlM_append]
      show (storeEvents events >>= fun tally => [increment].foldlM storeEvent tally) = _
      rw [hstored]
      show [increment].foldlM storeEvent tally = _
      rw [List.foldlM_cons, storeEvent_of_storable hlast]
      rfl
    · rw [map_entry_upsert, hrows, List.map_append, List.map_singleton, accumulateAll_concat,
        map_accumulate SqlNumber.ofSum_add]
      rfl

end Stores

/-! ## 3. The rows of a period -/

/-- What the callback makes of an entry of the table. -/
def entryArgs (glib : VariantLibrary) (order : ByteOrder) (entry : TallyKey × SqlNumber) :
    TallyIterArgs :=
  rowArgs glib order ⟨0, entry.1, entry.2⟩

/-- The key of the table for a key of a period. -/
def AggregateKey.tallyKey (key : AggregateKey) (date : Text) : TallyKey where
  date := date
  eventId := key.eventId
  unixUserId := key.unixUserId
  payload := (key.payload.map (·.data)).getD []

/-- What the callback is called with for a key and its sum. -/
def AggregateKey.args (glib : VariantLibrary) (order : ByteOrder) (date : Text)
    (key : AggregateKey) (sum : Nat) : TallyIterArgs where
  unixUserId := key.unixUserId
  eventId := key.eventId
  payload := key.payload.map (swapBytesIfBigEndian glib order)
  counter := min sum gMaxuint32
  date := date

section Period

variable {glib : VariantLibrary} {events : List TallyIncrement} {tallyType : EmerTallyType}
  {datetime : GDateTime}

theorem date_key_eq_iff (increment : TallyIncrement) :
    increment.key.date = formatDatetimeForTallyType datetime tallyType ↔
      increment.tallyType = tallyType ∧ tallyType.SamePeriod increment.datetime datetime := by
  show formatDatetimeForTallyType increment.datetime increment.tallyType = _ ↔ _
  rw [formatDatetimeForTallyType_eq_iff]
  constructor
  · intro h
    exact ⟨h.1, h.1 ▸ h.2⟩
  · intro h
    exact ⟨h.1, h.1 ▸ h.2⟩

theorem mem_storedFor {increment : TallyIncrement} :
    increment ∈ storedFor events tallyType datetime ↔
      increment ∈ events ∧
        increment.key.date = formatDatetimeForTallyType datetime tallyType := by
  rw [storedFor, List.mem_filter, decide_eq_true_eq, date_key_eq_iff]

theorem mem_storedKeys {key : AggregateKey} :
    key ∈ storedKeys events tallyType datetime ↔
      ∃ increment ∈ storedFor events tallyType datetime, increment.aggregateKey = key := by
  rw [storedKeys, List.mem_dedup, List.mem_map]

theorem TallyIncrement.key_eq (increment : TallyIncrement) :
    increment.key = increment.aggregateKey.tallyKey increment.key.date := by
  rw [TallyIncrement.key, AggregateKey.tallyKey, TallyIncrement.aggregateKey]
  cases increment.payload with
  | none => rfl
  | some payload => rfl

theorem key_of_mem_storedFor {increment : TallyIncrement}
    (hmem : increment ∈ storedFor events tallyType datetime) :
    increment.aggregateKey.tallyKey (formatDatetimeForTallyType datetime tallyType) =
      increment.key := by
  rw [increment.key_eq, (mem_storedFor.mp hmem).2]

/-- The variants that are in normal form have at least the end of their type string. -/
def NormalFormNonempty (glib : VariantLibrary) : Prop :=
  ∀ variant, variant.typeString = gVariantTypeVariant → glib.isNormalForm variant = true →
    variant.data ≠ []

variable (hnonempty : NormalFormNonempty glib)

include hnonempty

/-- An absent payload and a present one have different blobs, and so have different payloads. -/
theorem AggregateKey.tallyKey_inj {increment increment' : TallyIncrement} {date : Text}
    (h : increment.IsStorable glib) (h' : increment'.IsStorable glib)
    (heq : increment.aggregateKey.tallyKey date = increment'.aggregateKey.tallyKey date) :
    increment.aggregateKey = increment'.aggregateKey := by
  have hnormal := h.payload_normal
  have hnormal' := h'.payload_normal
  simp only [AggregateKey.tallyKey, TallyIncrement.aggregateKey, TallyKey.mk.injEq,
    true_and] at heq
  obtain ⟨hevent, huser, hblob⟩ := heq
  have hpayload : increment.payload = increment'.payload := by
    cases hp : increment.payload with
    | none =>
      cases hp' : increment'.payload with
      | none => rfl
      | some payload' =>
        rw [hp, hp'] at hblob
        obtain ⟨htype, hform⟩ := hnormal' payload' hp'
        exact absurd hblob.symm (hnonempty payload' htype hform)
    | some payload =>
      obtain ⟨htype, hform⟩ := hnormal payload hp
      cases hp' : increment'.payload with
      | none =>
        rw [hp, hp'] at hblob
        exact absurd hblob (hnonempty payload htype hform)
      | some payload' =>
        obtain ⟨htype', -⟩ := hnormal' payload' hp'
        rw [hp, hp'] at hblob
        obtain ⟨typeString, data⟩ := payload
        obtain ⟨typeString', data'⟩ := payload'
        obtain rfl : typeString = _ := htype
        obtain rfl : typeString' = _ := htype'
        obtain rfl : data = data' := hblob
        rfl
  rw [TallyIncrement.aggregateKey, TallyIncrement.aggregateKey, hevent, huser, hpayload]

theorem columnToVariant_payload (order : ByteOrder) {increment : TallyIncrement}
    (h : increment.IsStorable glib) :
    columnToVariant glib order ((increment.payload.map (·.data)).getD []) =
      increment.payload.map (swapBytesIfBigEndian glib order) := by
  have hnormal := h.payload_normal
  cases hp : increment.payload with
  | none => rfl
  | some payload =>
    obtain ⟨htype, hform⟩ := hnormal payload hp
    have hblob : payload.data ≠ [] := hnonempty payload htype hform
    obtain ⟨typeString, data⟩ := payload
    obtain rfl : typeString = _ := htype
    exact if_neg hblob

theorem entryArgs_tallyKey (order : ByteOrder) {increment : TallyIncrement} (date : Text)
    (h : increment.IsStorable glib) (sum : Nat) :
    entryArgs glib order (increment.aggregateKey.tallyKey date, .ofSum sum) =
      increment.aggregateKey.args glib order date sum := by
  have huser : columnToUint32 (.integer increment.unixUserId) = increment.unixUserId :=
    min_eq_left h.unixUserId_le
  have hevent : columnToUuid increment.eventId = increment.eventId := if_pos h.eventId_length
  show TallyIterArgs.mk (columnToUint32 (.integer increment.unixUserId))
    (columnToUuid increment.eventId) (columnToVariant glib order _) (columnToUint32 (.ofSum sum))
    date = _
  rw [huser, hevent, columnToUint32_ofSum]
  exact congrArg (TallyIterArgs.mk _ _ · _ _) (columnToVariant_payload hnonempty order h)

/-- The sum for a key of the table is the sum for its key within the period. -/
theorem totalAt_tallyKey (hstorable : ∀ increment ∈ events, increment.IsStorable glib)
    {increment : TallyIncrement} (hmem : increment ∈ storedFor events tallyType datetime) :
    totalAt (increment.aggregateKey.tallyKey (formatDatetimeForTallyType datetime tallyType))
        (events.map TallyIncrement.entry) =
      counterSum events tallyType datetime increment.aggregateKey := by
  obtain ⟨hevent, hdate⟩ := mem_storedFor.mp hmem
  have hkey := key_of_mem_storedFor hmem
  rw [totalAt, counterSum, storedFor, List.filter_map, List.map_map, List.filter_filter, hkey]
  congr 2
  apply List.filter_congr
  intro other hother
  -- a call has the key of the table exactly when it is one for the period with the key
  have hiff : other.key = increment.key ↔
      other.aggregateKey = increment.aggregateKey ∧ other.tallyType = tallyType ∧
        tallyType.SamePeriod other.datetime datetime := by
    rw [← date_key_eq_iff]
    constructor
    · intro heq
      have hotherDate : other.key.date = formatDatetimeForTallyType datetime tallyType := by
        rw [heq, hdate]
      refine ⟨?_, hotherDate⟩
      apply AggregateKey.tallyKey_inj hnonempty (hstorable other hother) (hstorable _ hevent)
      rw [hkey, ← heq, other.key_eq, hotherDate]
    · intro h
      rw [other.key_eq, h.1, h.2, hkey]
  show decide (other.key = increment.key) = _
  rw [Bool.eq_iff_iff, decide_eq_true_eq, hiff]
  simp

/-- The entries of the table for a period, and the keys of the period with their sums. -/
theorem entries_perm (hstorable : ∀ increment ∈ events, increment.IsStorable glib) :
    ((accumulateAll (· + ·) (events.map TallyIncrement.entry)).filter
        (·.1.date = formatDatetimeForTallyType datetime tallyType)).Perm
      ((storedKeys events tallyType datetime).map fun key =>
        (key.tallyKey (formatDatetimeForTallyType datetime tallyType),
          counterSum events tallyType datetime key)) := by
  apply (List.perm_ext_iff_of_nodup ?_ ?_).mpr
  · intro entry
    obtain ⟨tallyKey, sum⟩ := entry
    rw [List.mem_filter, mem_accumulateAll_iff, decide_eq_true_eq]
    constructor
    · intro h
      obtain ⟨⟨hkey, rfl⟩, hdate⟩ := h
      rw [List.map_map] at hkey
      obtain ⟨increment, hevent, rfl⟩ := List.mem_map.mp hkey
      have hmem : increment ∈ storedFor events tallyType datetime :=
        mem_storedFor.mpr ⟨hevent, hdate⟩
      apply List.mem_map.mpr
      refine ⟨increment.aggregateKey, mem_storedKeys.mpr ⟨increment, hmem, rfl⟩, ?_⟩
      have htotal := totalAt_tallyKey hnonempty hstorable hmem
      rw [key_of_mem_storedFor hmem] at htotal ⊢
      rw [← htotal]
      rfl
    · intro h
      obtain ⟨key, hkey, heq⟩ := List.mem_map.mp h
      obtain ⟨increment, hmem, rfl⟩ := mem_storedKeys.mp hkey
      obtain ⟨hevent, hdate⟩ := mem_storedFor.mp hmem
      have htotal := totalAt_tallyKey hnonempty hstorable hmem
      rw [key_of_mem_storedFor hmem] at htotal heq
      rw [← htotal] at heq
      cases heq
      refine ⟨⟨?_, rfl⟩, hdate⟩
      rw [List.map_map]
      exact List.mem_map.mpr ⟨increment, hevent, rfl⟩
  · exact (nodup_accumulateAll _ _).of_map.filter _
  · apply List.Nodup.map_on _ (List.nodup_dedup _)
    intro key hkey key' hkey' heq
    obtain ⟨increment, hmem, rfl⟩ := mem_storedKeys.mp hkey
    obtain ⟨increment', hmem', rfl⟩ := mem_storedKeys.mp hkey'
    apply AggregateKey.tallyKey_inj hnonempty (hstorable _ (mem_storedFor.mp hmem).1)
      (hstorable _ (mem_storedFor.mp hmem').1)
    exact congrArg Prod.fst heq

omit hnonempty in
/-- What the callback gets depends on the entries of the table only. -/
theorem args_eq_entryArgs (order : ByteOrder) (rows : List TallyRow) (date : Text) :
    (rows.filter (·.key.date = date)).map (rowArgs glib order) =
      ((rows.map TallyRow.entry).filter (·.1.date = date)).map (entryArgs glib order) := by
  rw [List.filter_map, List.map_map]
  rfl

end Period

/-! ## 4. What an iteration visits -/

/-- **The tally sums by key, in any order.**  An iteration over a tally that calls have filled, in
whatever order, visits one row for each user, event and payload, or absence of one, stored for the
type and the period, with the sum of its counters as far as 32 bits go. -/
theorem tally_sums_by_key (glib : VariantLibrary) (hnonempty : NormalFormNonempty glib)
    (order : ByteOrder) (select : SelectOrder) (events : List TallyIncrement)
    (hstorable : ∀ increment ∈ events, increment.IsStorable glib) (tallyType : EmerTallyType)
    (datetime : GDateTime) :
    ∃ visited, visitedAfter glib order select events tallyType datetime = .ok visited ∧
      visited.Perm ((storedKeys events tallyType datetime).map fun key =>
        key.args glib order (formatDatetimeForTallyType datetime tallyType)
          (counterSum events tallyType datetime key)) ∧
      ∀ (events' : List TallyIncrement) (select' : SelectOrder), events'.Perm events →
        ∃ visited', visitedAfter glib order select' events' tallyType datetime = .ok visited' ∧
          visited'.Perm visited := by
  have hvisited : ∀ (events' : List TallyIncrement) (select' : SelectOrder), events'.Perm events →
      ∃ visited, visitedAfter glib order select' events' tallyType datetime = .ok visited ∧
        visited.Perm ((storedKeys events tallyType datetime).map fun key =>
          key.args glib order (formatDatetimeForTallyType datetime tallyType)
            (counterSum events tallyType datetime key)) := by
    intro events' select' hperm
    obtain ⟨tally, hstored, hrows⟩ := storeEvents_rows events'
      fun increment hmem => hstorable increment (hperm.mem_iff.mp hmem)
    refine ⟨(select'.reorder (tally.rows.filter
      (·.key.date = formatDatetimeForTallyType datetime tallyType))).map (rowArgs glib order),
      ?_, ?_⟩
    · rw [visitedAfter, hstored, Except.bind, iter, iterInternal_collect]
    · apply ((select'.perm _).map _).trans
      rw [args_eq_entryArgs, hrows, List.filter_map, List.map_map]
      -- the order of the calls is gone once the table is summed
      have hsummed := (accumulateAll_perm (hperm.map TallyIncrement.entry)).filter
        (·.1.date = formatDatetimeForTallyType datetime tallyType)
      apply ((hsummed.trans (entries_perm hnonempty hstorable)).map _).trans
      rw [List.map_map]
      apply List.Perm.of_eq
      apply List.map_congr_left
      intro key hkey
      obtain ⟨increment, hmem, rfl⟩ := mem_storedKeys.mp hkey
      exact entryArgs_tallyKey hnonempty order _ (hstorable _ (mem_storedFor.mp hmem).1) _
  obtain ⟨visited, hvisit, hperm⟩ := hvisited events select (List.Perm.refl _)
  refine ⟨visited, hvisit, hperm, fun events' select' hevents => ?_⟩
  obtain ⟨visited', hvisit', hperm'⟩ := hvisited events' select' hevents
  exact ⟨visited', hvisit', hperm'.trans hperm.symm⟩

/-- The library, as it is for a variant that holds a 32-bit number. -/
def boxedNumbers : VariantLibrary where
  getNormalForm variant := variant
  byteswap variant := { variant with data := (variant.data.take 4).reverse ++ variant.data.drop 4 }
  isNormalForm variant := variant.data.drop 4 = [0, 117]
  typeStringIsValid typeString := typeString = gVariantTypeVariant

def boxed (low : UInt8) : GVariant := ⟨gVariantTypeVariant, [low, 0, 0, 0, 0, 117]⟩

/-- A call for one event of one user. -/
def sampleCall (tallyType : EmerTallyType) (payload : Option GVariant) (counter dayOfMonth : Nat) :
    TallyIncrement where
  timerId := 0
  tallyType := tallyType
  unixUserId := 1001
  eventId := List.replicate 16 7
  payload := payload
  counter := counter
  datetime := ⟨2021, 9, dayOfMonth⟩

/-- Calls with and without a payload, of both types and for two days. -/
def sampleCalls : List TallyIncrement :=
  [sampleCall .dailyEvents none 1 22, sampleCall .dailyEvents (some (boxed 1)) gMaxuint32 22,
    sampleCall .monthlyEvents none 5 22, sampleCall .dailyEvents none 2 22,
    sampleCall .dailyEvents (some (boxed 1)) 1 22, sampleCall .dailyEvents none 9 23]

theorem normalFormNonempty_boxedNumbers : NormalFormNonempty boxedNumbers := by
  intro variant _ hform hempty
  simp [boxedNumbers, hempty] at hform

theorem tally_sums_by_key_sampleCalls :
    ∃ visited, visitedAfter boxedNumbers .little .byRowId sampleCalls .dailyEvents ⟨2021, 9, 22⟩ =
        .ok visited ∧
      visited.Perm
        [⟨1001, List.replicate 16 7, none, 3, "2021-09-22".toList⟩,
          ⟨1001, List.replicate 16 7, some (boxed 1), gMaxuint32, "2021-09-22".toList⟩] := by
  have hstorable : ∀ increment ∈ sampleCalls, increment.IsStorable boxedNumbers := by
    intro increment hmem
    simp only [sampleCalls, List.mem_cons, List.not_mem_nil, or_false] at hmem
    rcases hmem with rfl | rfl | rfl | rfl | rfl | rfl
    all_goals exact ⟨by decide, by decide, by decide, by decide⟩
  obtain ⟨visited, hvisited, hperm, -⟩ := tally_sums_by_key boxedNumbers
    normalFormNonempty_boxedNumbers .little .byRowId sampleCalls hstorable .dailyEvents
    ⟨2021, 9, 22⟩
  exact ⟨visited, hvisited, hperm.trans (List.Perm.of_eq (by decide +kernel))⟩

end EventRecorder
