import EventRecorder.CircularFile.ZeroedTail
import EventRecorder.Daemon.Wedged
import EventRecorder.PersistentCache.RoundTrip

/-!
# The body of a network request

A request takes events from the persistent cache and, once nothing is left there, from the buffer,
until its budget is used up.  The events go into one of two arrays by their type.  The body is
described by the values that `g_variant_new` gets; its serialisation, which swaps the bytes on a
big-endian machine, is not modelled.
-/

namespace EventRecorder

open Theory

/-! ## 1. The two arrays -/

namespace GVariant

def IsSingular (event : GVariant) : Prop := event.typeString = singularTypeString

def IsAggregate (event : GVariant) : Prop := event.typeString = aggregateTypeString

instance (event : GVariant) : Decidable event.IsSingular :=
  inferInstanceAs (Decidable (event.typeString = singularTypeString))

instance (event : GVariant) : Decidable event.IsAggregate :=
  inferInstanceAs (Decidable (event.typeString = aggregateTypeString))

theorem not_isAggregate_of_isSingular {event : GVariant} (h : event.IsSingular) :
    ¬ event.IsAggregate := by
  unfold IsAggregate
  rw [h]
  decide

end GVariant

/-- What the two `GVariantBuilder`s hold. -/
structure EventBuilders where
  singulars : List GVariant
  aggregates : List GVariant
  deriving DecidableEq, Repr

/-- `add_events_to_builders` -/
def addEventsToBuilders (builders : EventBuilders) : List GVariant → Except GError EventBuilders
  | [] => .ok builders
  | currEvent :: events =>
    if currEvent.IsSingular then
      addEventsToBuilders { builders with singulars := builders.singulars ++ [currEvent] } events
    else if currEvent.IsAggregate then
      addEventsToBuilders { builders with aggregates := builders.aggregates ++ [currEvent] } events
    -- `g_error`
    else .error .aborts

/-- The builders with more events, each in the array of its type. -/
def EventBuilders.with (builders : EventBuilders) (events : List GVariant) : EventBuilders where
  singulars := builders.singulars ++ events.filter (fun event => event.IsSingular)
  aggregates := builders.aggregates ++ events.filter (fun event => event.IsAggregate)

theorem EventBuilders.with_append (builders : EventBuilders) (events more : List GVariant) :
    (builders.with events).with more = builders.with (events ++ more) := by
  unfold EventBuilders.with
  rw [List.filter_append, List.filter_append, List.append_assoc, List.append_assoc]

theorem addEventsToBuilders_eq {events : List GVariant}
    (h : ∀ event ∈ events, event.IsSingular ∨ event.IsAggregate) (builders : EventBuilders) :
    addEventsToBuilders builders events = .ok (builders.with events) := by
  induction events generalizing builders with
  | nil =>
    unfold EventBuilders.with
    rw [addEventsToBuilders, List.filter_nil, List.filter_nil, List.append_nil, List.append_nil]
  | cons event events ih =>
    have hrest := ih fun event hevent => h event (List.mem_cons_of_mem _ hevent)
    have hsplit : event :: events = [event] ++ events := rfl
    rw [addEventsToBuilders, hsplit, ← EventBuilders.with_append]
    by_cases hsingular : event.IsSingular
    · have hnot := GVariant.not_isAggregate_of_isSingular hsingular
      rw [if_pos hsingular, hrest]
      unfold EventBuilders.with
      simp [hsingular, hnot]
    · have haggregate := (h event List.mem_cons_self).resolve_left hsingular
      rw [if_neg hsingular, if_pos haggregate, hrest]
      unfold EventBuilders.with
      simp [hsingular, haggregate]

/-! ## 2. Stored events -/

section Stored

variable (glib : VariantLibrary) (order : ByteOrder)

/-- What `add_stored_events_to_builders` sets and returns. -/
structure StoredEvents where
  readVariants : Nat
  readBytes : Nat
  token : Nat
  /-- The request should also have events from the buffer. -/
  addFromBuffer : Bool
  deriving DecidableEq, Repr

/-- The sum of costs in a `gsize`. -/
def sumOfCosts (variants : List GVariant) : Nat :=
  variants.foldl (fun bytes variant => (bytes + emerPersistentCacheCost variant) % 2 ^ 64) 0

/-- `add_stored_events_to_builders`.  `saved` and `removed` say whether the metadata file can be
written when the read trims it and when corrupt data is removed. -/
def addStoredEventsToBuilders (persistentCache : EmerPersistentCache) (maxBytes : Nat)
    (saved removed : Bool) (builders : EventBuilders) :
    Except GError (StoredEvents × EventBuilders) × EmerPersistentCache :=
  match persistentCache.read glib order maxBytes saved with
  | (.error error, _, persistentCache) =>
    match error with
    -- the read itself ended the process
    | .aborts => (.error .aborts, persistentCache)
    -- corrupt data: everything is cleared
    | .invalidData _ =>
      (.ok (⟨0, 0, 0, true⟩, builders), (persistentCache.removeAll removed).2)
    | _ => (.ok (⟨0, 0, 0, true⟩, builders), persistentCache)
  | (.ok (variants, token), _, persistentCache) =>
    match addEventsToBuilders builders variants with
    | .error error => (.error error, persistentCache)
    | .ok builders =>
      (.ok (⟨variants.length, sumOfCosts variants, token, !persistentCache.hasMore token⟩,
        builders), persistentCache)

theorem foldl_costs (variants : List GVariant) (bytes : Nat)
    (h : bytes + (variants.map emerPersistentCacheCost).sum < 2 ^ 64) :
    variants.foldl (fun bytes variant => (bytes + emerPersistentCacheCost variant) % 2 ^ 64)
      bytes = bytes + (variants.map emerPersistentCacheCost).sum := by
  induction variants generalizing bytes with
  | nil => rfl
  | cons variant variants ih =>
    rw [List.map_cons, List.sum_cons] at h ⊢
    rw [List.foldl_cons, Nat.mod_eq_of_lt (by omega), ih _ (by omega)]
    omega

theorem sumOfCosts_eq {variants : List GVariant}
    (h : (variants.map emerPersistentCacheCost).sum < 2 ^ 64) :
    sumOfCosts variants = (variants.map emerPersistentCacheCost).sum := by
  have hsum := foldl_costs variants 0 (by omega)
  rw [Nat.zero_add] at hsum
  exact hsum

variable {glib order}
variable {persistentCache : EmerPersistentCache} {bytes : Bytes} {q : Fifo Bytes}
  {events : List GVariant}

theorem addStoredEventsToBuilders_eq (hswap : glib.SwapKeepsSize)
    (hholds : Holds persistentCache.variantFile bytes q)
    (hevents : q.saved.mapM (EmerPersistentCache.readVariant glib order) = .ok events)
    (htypes : ∀ event ∈ events, event.IsSingular ∨ event.IsAggregate) {maxBytes : Nat}
    (hmaxBytes : maxBytes < 2 ^ 64) (saved removed : Bool) (builders : EventBuilders)
    {stored : List GVariant}
    (hstored : stored = takeWithin emerPersistentCacheCost maxBytes events) :
    addStoredEventsToBuilders glib order persistentCache maxBytes saved removed builders =
      (.ok (⟨stored.length, (stored.map emerPersistentCacheCost).sum, tokenOf q stored.length,
        decide (events.length ≤ stored.length)⟩, builders.with stored), persistentCache) := by
  have hfront : stored <+: events := by
    rw [hstored]
    exact takeWithin_isPrefix _ _ _
  have hsum : (stored.map emerPersistentCacheCost).sum ≤ maxBytes := by
    rw [hstored]
    exact sum_takeWithin_le _ _ _
  have hmore : persistentCache.hasMore (tokenOf q stored.length) =
      decide (stored.length < events.length) := by
    rw [← length_eq_of_mapM hevents]
    exact hholds.hasMore_eq stored.length
  have hexhausted : (!decide (stored.length < events.length)) =
      decide (events.length ≤ stored.length) := by
    rw [← decide_not, decide_eq_decide, Nat.not_lt]
  unfold addStoredEventsToBuilders
  rw [EmerPersistentCache.read_takeWithin hswap hholds hevents, ← hstored]
  simp only
  rw [addEventsToBuilders_eq fun event hevent => htypes event (hfront.subset hevent)]
  simp only
  rw [sumOfCosts_eq (by omega), hmore, hexhausted]

/-- From a cache whose last elements were lost, a request takes those in front, and goes on with the
buffer: nothing is left behind the token. -/
theorem addStoredEventsToBuilders_loseFrom (hholds : Holds persistentCache.variantFile bytes q)
    {k maxBytes : Nat} (hk : k < q.saved.length)
    (hmaxBytes : ((q.saved.take k).map List.length).sum ≤ maxBytes)
    (hevents : (q.saved.take k).mapM (EmerPersistentCache.readVariant glib order) = .ok events)
    (htypes : ∀ event ∈ events, event.IsSingular ∨ event.IsAggregate) (removed : Bool)
    (builders : EventBuilders) :
    ∃ contents after,
      addStoredEventsToBuilders glib order
          ⟨persistentCache.variantFile.loseFrom (tokenOf q k)⟩ maxBytes true removed builders =
        (.ok (⟨k, sumOfCosts events, tokenOf q k, true⟩, builders.with events), after) ∧
      Holds after.variantFile contents ⟨q.saved.take k, q.unsaved⟩ := by
  obtain ⟨contents, hread, hafter⟩ := hholds.read_loseFrom hk hmaxBytes rfl
  have hlength : events.length = k := by
    rw [← length_eq_of_mapM hevents, List.length_take]
    omega
  rw [← tokenOf] at hread hafter
  generalize persistentCache.variantFile.loseFrom (tokenOf q k) = lost at hread hafter ⊢
  refine ⟨contents, ⟨(lost.setMetadata (tokenOf q k) lost.head true).2⟩, ?_, hafter⟩
  have hmore : ((lost.setMetadata (tokenOf q k) lost.head true).2).hasMore (tokenOf q k) = false :=
    decide_eq_false (Nat.lt_irrefl _)
  unfold addStoredEventsToBuilders
  rw [EmerPersistentCache.read, hread]
  simp only [hevents, Except.mapError, Except.map]
  rw [addEventsToBuilders_eq htypes]
  simp only
  rw [EmerPersistentCache.hasMore, hmore, hlength]
  rfl

end Stored

/-! ## 3. Buffered events -/

/-- How many of the events from the front the loop counts. -/
def numAffordable (numBytes : Nat) : Nat → List GVariant → Nat
  | _, [] => 0
  | currBytes, currEvent :: events =>
    let currBytes := (currBytes + emerPersistentCacheCost currEvent) % 2 ^ 64
    if numBytes < currBytes then 0 else numAffordable numBytes currBytes events + 1

/-- `add_buffered_events_to_builders`, with the number of events. -/
def addBufferedEventsToBuilders (variantArray : List GVariant) (numBytes : Nat)
    (builders : EventBuilders) : Except GError (Nat × EventBuilders) :=
  let numVariants := numAffordable numBytes 0 variantArray
  (addEventsToBuilders builders (variantArray.take numVariants)).map (numVariants, ·)

theorem numAffordable_eq {numBytes currBytes : Nat} {events : List GVariant}
    (hcurr : currBytes ≤ numBytes)
    (hsum : currBytes + (events.map emerPersistentCacheCost).sum < 2 ^ 64) :
    numAffordable numBytes currBytes events =
      (takeWithin emerPersistentCacheCost (numBytes - currBytes) events).length := by
  induction events generalizing currBytes with
  | nil => rfl
  | cons event events ih =>
    rw [List.map_cons, List.sum_cons] at hsum
    rw [numAffordable, takeWithin, Nat.mod_eq_of_lt (by omega)]
    by_cases hfits : emerPersistentCacheCost event ≤ numBytes - currBytes
    · rw [if_neg (by omega), if_pos hfits, ih (by omega) (by omega), List.length_cons,
        Nat.sub_sub]
    · rw [if_pos (by omega), if_neg hfits, List.length_nil]

theorem addBufferedEventsToBuilders_eq {variantArray : List GVariant}
    (htypes : ∀ event ∈ variantArray, event.IsSingular ∨ event.IsAggregate)
    (hsum : (variantArray.map emerPersistentCacheCost).sum < 2 ^ 64) (numBytes : Nat)
    (builders : EventBuilders) {buffered : List GVariant}
    (hbuffered : buffered = takeWithin emerPersistentCacheCost numBytes variantArray) :
    addBufferedEventsToBuilders variantArray numBytes builders =
      .ok (buffered.length, builders.with buffered) := by
  have hfront : buffered <+: variantArray := by
    rw [hbuffered]
    exact takeWithin_isPrefix _ _ _
  have hcount : numAffordable numBytes 0 variantArray = buffered.length := by
    rw [hbuffered]
    exact numAffordable_eq (Nat.zero_le _) (by omega)
  unfold addBufferedEventsToBuilders
  simp only
  rw [hcount, ← List.prefix_iff_eq_take.mp hfront,
    addEventsToBuilders_eq fun event hevent => htypes event (hfront.subset hevent)]
  rfl

/-! ## 4. The request -/

/-- The members of a request that say where it comes from. -/
structure RequestHeader where
  imageVersion : Text
  siteId : GVariant
  bootType : UInt8

structure RequestBody where
  relativeTimestamp : Int
  absoluteTimestamp : Int
  header : RequestHeader
  events : EventBuilders

/-- What `create_request_body` sets, with the bytes that it read, and what it returns. -/
structure CreatedRequest where
  numBytesRead : Nat
  token : Nat
  numStoredEvents : Nat
  numBufferEvents : Nat
  /-- Without a body when the time could not be read. -/
  requestBody : Option RequestBody

/-- `create_request_body`.  The timestamps are those that `get_offset_timestamps` gets. -/
def createRequestBody (glib : VariantLibrary) (order : ByteOrder)
    (persistentCache : EmerPersistentCache) (variantArray : List GVariant) (maxBytes : Nat)
    (header : RequestHeader) (timestamps : Option (Int × Int)) (saved removed : Bool) :
    Except GError CreatedRequest × EmerPersistentCache :=
  match addStoredEventsToBuilders glib order persistentCache maxBytes saved removed ⟨[], []⟩ with
  | (.error error, persistentCache) => (.error error, persistentCache)
  | (.ok (stored, builders), persistentCache) =>
    let spaceRemaining := (maxBytes + (2 ^ 64 - stored.readBytes)) % 2 ^ 64
    let added :=
      if stored.addFromBuffer then
        addBufferedEventsToBuilders variantArray spaceRemaining builders
      else .ok (0, builders)
    (added.map fun buffered =>
      { numBytesRead := stored.readBytes
        token := stored.token
        numStoredEvents := stored.readVariants
        numBufferEvents := buffered.1
        requestBody := timestamps.map fun times => ⟨times.1, times.2, header, buffered.2⟩ },
      persistentCache)

section Request

variable {glib : VariantLibrary} {order : ByteOrder}
variable {persistentCache : EmerPersistentCache} {bytes : Bytes} {q : Fifo Bytes}
  {events variantArray : List GVariant}

/-- The two loops select what one loop over the stored and the buffered events would. -/
theorem createRequestBody_eq (hswap : glib.SwapKeepsSize)
    (hholds : Holds persistentCache.variantFile bytes q)
    (hevents : q.saved.mapM (EmerPersistentCache.readVariant glib order) = .ok events)
    (htypes : ∀ event ∈ events ++ variantArray, event.IsSingular ∨ event.IsAggregate)
    (hsum : (variantArray.map emerPersistentCacheCost).sum < 2 ^ 64) {maxBytes : Nat}
    (hmaxBytes : maxBytes < 2 ^ 64) (header : RequestHeader) (timestamps : Option (Int × Int))
    (saved removed : Bool) {stored : List GVariant}
    (hstored : stored = takeWithin emerPersistentCacheCost maxBytes events) :
    ∃ buffered, buffered <+: variantArray ∧ (buffered ≠ [] → stored = events) ∧
      stored ++ buffered = takeWithin emerPersistentCacheCost maxBytes (events ++ variantArray) ∧
      createRequestBody glib order persistentCache variantArray maxBytes header timestamps saved
          removed =
        (.ok ⟨(stored.map emerPersistentCacheCost).sum, tokenOf q stored.length, stored.length,
          buffered.length, timestamps.map fun times =>
            ⟨times.1, times.2, header, EventBuilders.with ⟨[], []⟩ (stored ++ buffered)⟩⟩,
          persistentCache) := by
  have hadded := addStoredEventsToBuilders_eq hswap hholds hevents
    (fun event hevent => htypes event (List.mem_append_left _ hevent)) hmaxBytes saved removed
    ⟨[], []⟩ hstored
  have hbufferTypes : ∀ event ∈ variantArray, event.IsSingular ∨ event.IsAggregate :=
    fun event hevent => htypes event (List.mem_append_right _ hevent)
  unfold createRequestBody
  rw [hadded]
  by_cases hall : (events.map emerPersistentCacheCost).sum ≤ maxBytes
  -- the whole cache is read, and the buffer gets what it leaves of the budget
  · have heq : stored = events := hstored.trans (takeWithin_of_sum_le hall)
    have hspace : (maxBytes + (2 ^ 64 - (stored.map emerPersistentCacheCost).sum)) % 2 ^ 64 =
        maxBytes - (events.map emerPersistentCacheCost).sum := by
      rw [heq]
      omega
    refine ⟨takeWithin emerPersistentCacheCost
      (maxBytes - (events.map emerPersistentCacheCost).sum) variantArray,
      takeWithin_isPrefix _ _ _, fun _ => heq, ?_, ?_⟩
    · rw [heq, takeWithin_append_of_le hall]
    · simp only [hspace, ← heq, le_refl, decide_true, if_true]
      rw [addBufferedEventsToBuilders_eq hbufferTypes hsum _ _ rfl, EventBuilders.with_append]
      rfl
  · have hlt : maxBytes < (events.map emerPersistentCacheCost).sum := Nat.not_le.mp hall
    have hrest : ¬ events.length ≤ stored.length := by
      intro hlength
      apply hall
      have hfront : stored <+: events := hstored ▸ takeWithin_isPrefix _ _ _
      rw [← hfront.eq_of_length_le hlength, hstored]
      exact sum_takeWithin_le _ _ _
    refine ⟨[], List.nil_prefix, fun h => absurd rfl h, ?_, ?_⟩
    · rw [takeWithin_append_of_lt hlt, List.append_nil, hstored]
    · simp only [hrest, decide_false, Bool.false_eq_true, if_false]
      rw [List.append_nil]
      rfl

/-- **A request has the longest prefix of the stored and then the buffered events that its budget
covers**, the token stands for its stored events, and its arrays are the prefix parted by type. -/
theorem request_isLongestPrefix (glib : VariantLibrary) (order : ByteOrder)
    (hswap : glib.SwapKeepsSize) {persistentCache : EmerPersistentCache} {bytes : Bytes}
    {q : Fifo Bytes} (hholds : Holds persistentCache.variantFile bytes q) {events : List GVariant}
    (hevents : q.saved.mapM (EmerPersistentCache.readVariant glib order) = .ok events)
    {variantArray : List GVariant}
    (htypes : ∀ event ∈ events ++ variantArray, event.IsSingular ∨ event.IsAggregate)
    (hsum : (variantArray.map emerPersistentCacheCost).sum < 2 ^ 64) {maxBytes : Nat}
    (hmaxBytes : maxBytes < 2 ^ 64) (header : RequestHeader) (timestamps : Option (Int × Int))
    (saved removed : Bool) :
    ∃ created pre,
      createRequestBody glib order persistentCache variantArray maxBytes header timestamps saved
        removed = (.ok created, persistentCache) ∧
      IsLongestPrefix emerPersistentCacheCost maxBytes pre (events ++ variantArray) ∧
      pre = events.take created.numStoredEvents ++ variantArray.take created.numBufferEvents ∧
      created.numStoredEvents ≤ events.length ∧
      created.numBufferEvents ≤ variantArray.length ∧
      (0 < created.numBufferEvents → created.numStoredEvents = events.length) ∧
      created.token = tokenOf q created.numStoredEvents ∧
      (persistentCache.hasMore created.token = true ↔ created.numStoredEvents < events.length) ∧
      (persistentCache.variantFile.maxSize ≤ 2 ^ 63 →
        Holds (persistentCache.remove created.token true).2.variantFile bytes
          (q.remove created.numStoredEvents)) ∧
      created.numBytesRead =
        ((events.take created.numStoredEvents).map emerPersistentCacheCost).sum ∧
      created.numBytesRead ≤ maxBytes ∧
      created.requestBody = timestamps.map fun times =>
        ⟨times.1, times.2, header, pre.filter (fun event => event.IsSingular),
          pre.filter (fun event => event.IsAggregate)⟩ := by
  have hfront := takeWithin_isPrefix emerPersistentCacheCost maxBytes events
  have hle := sum_takeWithin_le emerPersistentCacheCost maxBytes events
  obtain ⟨buffered, hbuffered, hexhausted, hpre, hcreated⟩ := createRequestBody_eq hswap hholds
    hevents htypes hsum hmaxBytes header timestamps saved removed rfl
  generalize takeWithin emerPersistentCacheCost maxBytes events = stored at *
  have htaken : events.take stored.length = stored := (List.prefix_iff_eq_take.mp hfront).symm
  refine ⟨_, _, hcreated, takeWithin_isLongestPrefix _ _ _, ?_, hfront.length_le,
    hbuffered.length_le, ?_, rfl, ?_, ?_, ?_, hle, ?_⟩
  · show _ = events.take stored.length ++ variantArray.take buffered.length
    rw [htaken, ← List.prefix_iff_eq_take.mp hbuffered, hpre]
  · intro hpos
    rw [hexhausted (List.length_pos_iff.mp hpos)]
  · show persistentCache.variantFile.hasMore (encode (q.saved.take stored.length)).length = true ↔ _
    rw [hholds.hasMore_eq, Fifo.hasMore, decide_eq_true_eq, length_eq_of_mapM hevents]
  · intro hmaxSize
    exact hholds.remove_saved (by omega) stored.length
  · show _ = ((events.take stored.length).map emerPersistentCacheCost).sum
    rw [htaken]
  · rw [hpre]
    rfl

def sampleQueue : Fifo Bytes :=
  ⟨[variantElem (sampleSingular 1), variantElem (sampleAggregate 2)], []⟩

/-- A cache of 256 bytes with an event of each type. -/
def sampleCache : EmerPersistentCache :=
  ⟨⟨⟨some (encode sampleQueue.saved), .absent⟩, KeyFile.empty, [], 256, 112, 0⟩⟩

theorem sampleCache_holds :
    Holds sampleCache.variantFile (encode sampleQueue.saved) sampleQueue where
  dataFile := rfl
  maxSize_lt := by decide
  size_eq := by decide
  writeBuffer_eq := rfl
  fits := by decide
  head_lt := by decide
  stored := ⟨by decide, ringHolds_self (by decide), .inl (by decide)⟩
  nonempty := by decide

/-- A site without an identification, on a machine that was booted normally. -/
def sampleHeader : RequestHeader := ⟨"eos-amd64".toList, ⟨[97, 123, 115, 115, 125], []⟩, 0⟩

/-- The whole cache and the first of two events in the buffer fit into 150 bytes. -/
theorem request_isLongestPrefix_sampleCache :
    ∃ created pre,
      createRequestBody eventVariants .little sampleCache [sampleSingular 3, sampleSingular 4] 150
        sampleHeader (some (5, 6)) true true = (.ok created, sampleCache) ∧
      IsLongestPrefix emerPersistentCacheCost 150 pre
        ([sampleSingular 1, sampleAggregate 2] ++ [sampleSingular 3, sampleSingular 4]) ∧
      pre = [sampleSingular 1, sampleAggregate 2].take created.numStoredEvents ++
        [sampleSingular 3, sampleSingular 4].take created.numBufferEvents ∧
      created.numStoredEvents ≤ 2 ∧ created.numBufferEvents ≤ 2 ∧
      (0 < created.numBufferEvents → created.numStoredEvents = 2) ∧
      created.token = tokenOf sampleQueue created.numStoredEvents ∧
      (sampleCache.hasMore created.token = true ↔ created.numStoredEvents < 2) ∧
      (sampleCache.variantFile.maxSize ≤ 2 ^ 63 →
        Holds (sampleCache.remove created.token true).2.variantFile (encode sampleQueue.saved)
          (sampleQueue.remove created.numStoredEvents)) ∧
      created.numBytesRead = (([sampleSingular 1, sampleAggregate 2].take
        created.numStoredEvents).map emerPersistentCacheCost).sum ∧
      created.numBytesRead ≤ 150 ∧
      created.requestBody = some ⟨5, 6, sampleHeader,
        pre.filter (fun event => event.IsSingular),
        pre.filter (fun event => event.IsAggregate)⟩ :=
  request_isLongestPrefix eventVariants .little eventVariants_lawful.swapKeepsSize
    sampleCache_holds (by decide +kernel) (by decide) (by decide) (by decide) sampleHeader
    (some (5, 6)) true true

example : (createRequestBody eventVariants .little sampleCache [sampleSingular 3, sampleSingular 4]
    150 sampleHeader none true true).1.map (fun created => (created.numStoredEvents,
      created.numBufferEvents)) = .ok (2, 1) := by
  decide +kernel

/-! ## 5. The request of the daemon -/

/-- The daemon's request is this one, where the cache holds the contents that the daemon expects. -/
theorem EmerDaemon.createRequestBody_agrees (hswap : glib.SwapKeepsSize)
    {parsesPingSocket parsesHttpRequestUrl : Text → Bool}
    {self : EmerDaemon EmerPersistentCache (StorableVariant glib order)} {capacity : Nat}
    (hcapacity : capacity < 2 ^ 63) {contents : List (StorableVariant glib order)}
    (hcontents : EmerPersistentCache.SyncedContents capacity self.persistentCache contents)
    (htypes : ∀ event ∈ contents ++ self.buffer.variantArray,
      event.variant.IsSingular ∨ event.variant.IsAggregate)
    (hsum : ((self.buffer.variantArray.map StorableVariant.variant).map
      emerPersistentCacheCost).sum < 2 ^ 64) (uploadTask : UploadTask (StorableVariant glib order))
    (hsize : uploadTask.maxUploadSize < 2 ^ 64) (header : RequestHeader) (times : Int × Int)
    (saved removed : Bool) :
    ∃ created body,
      EventRecorder.createRequestBody glib order self.persistentCache
        (self.buffer.variantArray.map StorableVariant.variant) uploadTask.maxUploadSize header
        (some times) saved removed = (.ok created, self.persistentCache) ∧
      created.requestBody = some ⟨times.1, times.2, header,
        EventBuilders.with ⟨[], []⟩ (body.map StorableVariant.variant)⟩ ∧
      self.createRequestBody (storingParts glib order parsesPingSocket parsesHttpRequestUrl)
          uploadTask true =
        (some { uploadTask with
          requestBody := body, token := created.token, numStoredEvents := created.numStoredEvents,
          numBufferEvents := created.numBufferEvents, attemptNum := 0 }, self) := by
  obtain ⟨hmaxSize, bytes, hholds⟩ := hcontents.contents
  -- the two select by the same costs, over events here and over their variants there
  have hmap : ∀ events : List (StorableVariant glib order),
      (takeWithin (storingParts glib order parsesPingSocket parsesHttpRequestUrl).cost
        uploadTask.maxUploadSize events).map StorableVariant.variant =
      takeWithin emerPersistentCacheCost uploadTask.maxUploadSize
        (events.map StorableVariant.variant) :=
    fun events => (takeWithin_map emerPersistentCacheCost StorableVariant.variant _ events).symm
  have hvariants : ∀ event ∈ contents.map StorableVariant.variant ++
      self.buffer.variantArray.map StorableVariant.variant,
      event.IsSingular ∨ event.IsAggregate := by
    intro event hevent
    rw [← List.map_append] at hevent
    obtain ⟨storable, hstorable, rfl⟩ := List.mem_map.mp hevent
    exact htypes storable hstorable
  obtain ⟨buffered, hbody, hrequest⟩ := createRequestBody_eq_takeWithin
    (EmerPersistentCache.lawful_synced hcapacity)
    (@storingParts_readsLongestPrefix glib order parsesPingSocket parsesHttpRequestUrl hswap
      capacity) hcontents uploadTask hsize rfl
  obtain ⟨variants, -, -, hbody', hcreated⟩ := EventRecorder.createRequestBody_eq hswap hholds
    (EmerPersistentCache.mapM_elems contents) hvariants hsum hsize header (some times) saved removed
    (hmap contents)
  have hfront := takeWithin_isPrefix
    (storingParts glib order parsesPingSocket parsesHttpRequestUrl).cost uploadTask.maxUploadSize
    contents
  generalize takeWithin (storingParts glib order parsesPingSocket parsesHttpRequestUrl).cost
    uploadTask.maxUploadSize contents = stored at hfront hbody hrequest hbody' hcreated
  rw [← List.map_append, ← hmap, ← hbody, List.map_append] at hbody'
  have hbuffered : variants = buffered.map StorableVariant.variant :=
    List.append_cancel_left hbody'
  rw [hbuffered, ← List.map_append] at hcreated
  refine ⟨_, stored ++ buffered, hcreated, rfl, hrequest.trans ?_⟩
  rw [List.length_map, List.length_map, tokenOf, ← List.map_take,
    ← List.prefix_iff_eq_take.mp hfront]
  rfl

end Request

end EventRecorder
