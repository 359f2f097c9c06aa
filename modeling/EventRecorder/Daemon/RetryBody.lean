import EventRecorder.PersistentCache.Basic

/-!
# The body of a request on its retries

A request is sent in little-endian byte order.  On a big-endian machine its first body is swapped
as a whole, and a retry puts swapped timestamps into the body that was swapped before.  A variant is
described by its parts, with the numbers as they stand in memory; what they stand for depends on
who reads them.
-/

namespace EventRecorder

open Theory

/-! ## 1. Variants in memory -/

/-- The basic types that take up more than one byte and have a byte order. -/
inductive NumberType where
  | int16 | uint16 | int32 | uint32 | int64 | uint64 | handle | double
  deriving DecidableEq, Repr

inductive TextType where
  | string | objectPath | signature
  deriving DecidableEq, Repr

inductive ContainerType where
  | maybe (child : Text)
  | array (child : Text)
  | tuple
  | dictEntry
  | variant
  deriving DecidableEq, Repr

/-- A variant with its numbers in `ν`: their bytes in memory, or what these stand for. -/
inductive VariantValue (ν : Type) where
  | boolean (value : Bool)
  | byte (value : UInt8)
  | number (type : NumberType) (value : ν)
  | text (type : TextType) (value : Text)
  | container (type : ContainerType) (children : List (VariantValue ν))

namespace VariantValue

variable {ν μ ξ : Type}

mutual

/-- Changes the numbers and nothing else. -/
def map (f : ν → μ) : VariantValue ν → VariantValue μ
  | .boolean value => .boolean value
  | .byte value => .byte value
  | .number type value => .number type (f value)
  | .text type value => .text type value
  | .container type children => .container type (mapChildren f children)

def mapChildren (f : ν → μ) : List (VariantValue ν) → List (VariantValue μ)
  | [] => []
  | child :: children => child.map f :: mapChildren f children

end

mutual

theorem map_map (f : ν → μ) (g : μ → ξ) :
    ∀ value : VariantValue ν, (value.map f).map g = value.map (g ∘ f)
  | .boolean _ => rfl
  | .byte _ => rfl
  | .number _ _ => rfl
  | .text _ _ => rfl
  | .container type children => by
    rw [map, map, map, mapChildren_mapChildren f g children]

theorem mapChildren_mapChildren (f : ν → μ) (g : μ → ξ) :
    ∀ children : List (VariantValue ν),
      mapChildren g (mapChildren f children) = mapChildren (g ∘ f) children
  | [] => rfl
  | child :: children => by
    rw [mapChildren, mapChildren, mapChildren, map_map f g child,
      mapChildren_mapChildren f g children]

end

end VariantValue

/-! ## 2. Byte orders -/

/-- The bytes of a number in the memory of a machine. -/
def ByteOrder.toMemory (order : ByteOrder) (width n : Nat) : Bytes :=
  match order with
  | .little => toLittleEndian width n
  | .big => (toLittleEndian width n).reverse

/-- What the machine takes them for. -/
def ByteOrder.ofMemory (order : ByteOrder) (bytes : Bytes) : Nat :=
  match order with
  | .little => ofLittleEndian bytes
  | .big => ofLittleEndian bytes.reverse

def bswap64 (value : BitVec 64) : BitVec 64 :=
  BitVec.ofNat 64 (ofLittleEndian (toLittleEndian 8 value.toNat).reverse)

/-- `swap_bytes_64_if_big_endian` -/
def swapBytes64IfBigEndian (order : ByteOrder) (value : BitVec 64) : BitVec 64 :=
  match order with
  | .little => value
  | .big => bswap64 value

theorem toLittleEndian_bswap64 (value : BitVec 64) :
    toLittleEndian 8 (bswap64 value).toNat = (toLittleEndian 8 value.toNat).reverse := by
  have hlength : (toLittleEndian 8 value.toNat).reverse.length = 8 := by
    rw [List.length_reverse, length_toLittleEndian]
  have hlt := ofLittleEndian_lt (toLittleEndian 8 value.toNat).reverse
  rw [hlength] at hlt
  have hswapped := toLittleEndian_ofLittleEndian (toLittleEndian 8 value.toNat).reverse
  rw [hlength] at hswapped
  rw [bswap64, BitVec.toNat_ofNat, Nat.mod_eq_of_lt (by omega)]
  exact hswapped

/-- A swapped number stands in memory as a little-endian machine keeps the number itself. -/
theorem toMemory_swapBytes64IfBigEndian (order : ByteOrder) (value : BitVec 64) :
    order.toMemory 8 (swapBytes64IfBigEndian order value).toNat = toLittleEndian 8 value.toNat := by
  cases order with
  | little => rfl
  | big =>
    show (toLittleEndian 8 (bswap64 value).toNat).reverse = _
    rw [toLittleEndian_bswap64, List.reverse_reverse]

/-! ## 3. Requests -/

/-- `(aysxmv)` -/
structure SingularVariant (ν : Type) where
  eventId : Bytes
  osVersion : Text
  relativeTimestamp : ν
  payload : Option (VariantValue ν)

/-- `(ayssumv)` -/
structure AggregateVariant (ν : Type) where
  eventId : Bytes
  osVersion : Text
  periodStart : Text
  count : ν
  payload : Option (VariantValue ν)

/-- An event in the buffer or in the persistent cache. -/
inductive PendingEvent (ν : Type) where
  | singular (event : SingularVariant ν)
  | aggregate (event : AggregateVariant ν)

/-- `REQUEST_TYPE_STRING`: `(xxsa{ss}ya(aysxmv)a(ayssumv))`. -/
structure RequestVariant (ν : Type) where
  relativeTimestamp : ν
  absoluteTimestamp : ν
  imageVersion : Text
  siteId : List (Text × Text)
  bootType : UInt8
  singulars : List (SingularVariant ν)
  aggregates : List (AggregateVariant ν)

section Map

variable {ν μ ξ : Type} (f : ν → μ) (g : μ → ξ)

def SingularVariant.map (event : SingularVariant ν) : SingularVariant μ where
  eventId := event.eventId
  osVersion := event.osVersion
  relativeTimestamp := f event.relativeTimestamp
  payload := event.payload.map (VariantValue.map f)

def AggregateVariant.map (event : AggregateVariant ν) : AggregateVariant μ where
  eventId := event.eventId
  osVersion := event.osVersion
  periodStart := event.periodStart
  count := f event.count
  payload := event.payload.map (VariantValue.map f)

def RequestVariant.map (request : RequestVariant ν) : RequestVariant μ where
  relativeTimestamp := f request.relativeTimestamp
  absoluteTimestamp := f request.absoluteTimestamp
  imageVersion := request.imageVersion
  siteId := request.siteId
  bootType := request.bootType
  singulars := request.singulars.map (SingularVariant.map f)
  aggregates := request.aggregates.map (AggregateVariant.map f)

theorem payload_map_map (payload : Option (VariantValue ν)) :
    (payload.map (VariantValue.map f)).map (VariantValue.map g) =
      payload.map (VariantValue.map (g ∘ f)) := by
  cases payload with
  | none => rfl
  | some value => exact congrArg some (VariantValue.map_map f g value)

theorem SingularVariant.map_comp_map :
    SingularVariant.map g ∘ SingularVariant.map f = SingularVariant.map (g ∘ f) := by
  funext event
  show (event.map f).map g = event.map (g ∘ f)
  unfold SingularVariant.map
  rw [payload_map_map]
  rfl

theorem AggregateVariant.map_comp_map :
    AggregateVariant.map g ∘ AggregateVariant.map f = AggregateVariant.map (g ∘ f) := by
  funext event
  show (event.map f).map g = event.map (g ∘ f)
  unfold AggregateVariant.map
  rw [payload_map_map]
  rfl

theorem RequestVariant.map_map (request : RequestVariant ν) :
    (request.map f).map g = request.map (g ∘ f) := by
  unfold RequestVariant.map
  dsimp only
  rw [List.map_map, List.map_map, SingularVariant.map_comp_map, AggregateVariant.map_comp_map]
  rfl

end Map

namespace RequestVariant

/-- `g_variant_byteswap`, which exchanges the bytes of every number. -/
def byteswap (request : RequestVariant Bytes) : RequestVariant Bytes := request.map List.reverse

/-- `swap_bytes_if_big_endian` -/
def swapBytesIfBigEndian (order : ByteOrder) (request : RequestVariant Bytes) :
    RequestVariant Bytes :=
  match order with
  | .little => request
  | .big => request.byteswap

/-- What the server takes the body for. -/
def readLittleEndian (request : RequestVariant Bytes) : RequestVariant Nat :=
  request.map ofLittleEndian

/-- A swapped body means to the server what it meant to the machine. -/
theorem readLittleEndian_swapBytesIfBigEndian (order : ByteOrder)
    (request : RequestVariant Bytes) :
    (request.swapBytesIfBigEndian order).readLittleEndian = request.map order.ofMemory := by
  cases order with
  | little => rfl
  | big => exact RequestVariant.map_map List.reverse ofLittleEndian request

end RequestVariant

/-! ## 4. The attempts -/

/-- What the clocks say, and the boot offset. -/
structure ClockReading where
  boottime : Option (BitVec 64)
  realtime : Option (BitVec 64)
  bootTimeOffset : Except GError (BitVec 64)

structure OffsetTimestamps where
  relative : BitVec 64
  absolute : BitVec 64
  deriving DecidableEq, Repr

/-- `get_offset_timestamps` -/
def getOffsetTimestamps (reading : ClockReading) : Except GError OffsetTimestamps :=
  match reading.boottime, reading.realtime with
  | some relTimestamp, some absTimestamp =>
    match reading.bootTimeOffset with
    | .error error => .error error
    | .ok bootOffset => .ok ⟨relTimestamp + bootOffset, absTimestamp⟩
  | _, _ => .error .failed

/-- What a request is made of, with the pending events as they stand in memory. -/
structure RequestMembers where
  imageVersion : Text
  siteId : List (Text × Text)
  bootType : UInt8
  pending : List (PendingEvent Bytes)

def PendingEvent.singular? {ν : Type} : PendingEvent ν → Option (SingularVariant ν)
  | .singular event => some event
  | .aggregate _ => none

def PendingEvent.aggregate? {ν : Type} : PendingEvent ν → Option (AggregateVariant ν)
  | .singular _ => none
  | .aggregate event => some event

section Attempts

variable (order : ByteOrder)

/-- `g_variant_new` for the type of a request or of a retry.  The timestamps are numbers of the
machine, and the arrays are in memory. -/
def newRequestVariant (times : OffsetTimestamps) (imageVersion : Text)
    (siteId : List (Text × Text)) (bootType : UInt8) (singulars : List (SingularVariant Bytes))
    (aggregates : List (AggregateVariant Bytes)) : RequestVariant Bytes where
  relativeTimestamp := order.toMemory 8 times.relative.toNat
  absoluteTimestamp := order.toMemory 8 times.absolute.toNat
  imageVersion := imageVersion
  siteId := siteId
  bootType := bootType
  singulars := singulars
  aggregates := aggregates

namespace RequestMembers

/-- `create_request_body`, with the events that it has read. -/
def createRequestBody (members : RequestMembers) (reading : ClockReading) :
    Except GError (RequestVariant Bytes) :=
  (getOffsetTimestamps reading).map fun times =>
    (newRequestVariant order times members.imageVersion members.siteId members.bootType
      (members.pending.filterMap PendingEvent.singular?)
      (members.pending.filterMap PendingEvent.aggregate?)).swapBytesIfBigEndian order

end RequestMembers

/-- `get_updated_request_body` -/
def getUpdatedRequestBody (requestBody : RequestVariant Bytes) (reading : ClockReading) :
    Except GError (RequestVariant Bytes) :=
  (getOffsetTimestamps reading).map fun times =>
    newRequestVariant order
      { relative := swapBytes64IfBigEndian order times.relative
        absolute := swapBytes64IfBigEndian order times.absolute }
      requestBody.imageVersion requestBody.siteId requestBody.bootType requestBody.singulars
      requestBody.aggregates

/-- The body that is sent after so many retries: `handle_backoff_timer` replaces the body of the
request by the updated one, which the next retry is given.  The first error ends the upload. -/
def RequestMembers.bodyAfter (members : RequestMembers) (first : ClockReading)
    (retries : List ClockReading) : Except GError (RequestVariant Bytes) :=
  (members.createRequestBody order first).bind fun requestBody =>
    retries.foldlM (getUpdatedRequestBody order) requestBody

/-- What a request says. -/
def RequestMembers.meaning (members : RequestMembers) (times : OffsetTimestamps) :
    RequestVariant Nat where
  relativeTimestamp := times.relative.toNat
  absoluteTimestamp := times.absolute.toNat
  imageVersion := members.imageVersion
  siteId := members.siteId
  bootType := members.bootType
  singulars := (members.pending.filterMap PendingEvent.singular?).map
    (SingularVariant.map order.ofMemory)
  aggregates := (members.pending.filterMap PendingEvent.aggregate?).map
    (AggregateVariant.map order.ofMemory)

variable {order} {members : RequestMembers} {reading first : ClockReading}
  {requestBody : RequestVariant Bytes}

theorem ofMemory_toMemory (order : ByteOrder) (value : BitVec 64) :
    order.ofMemory (order.toMemory 8 value.toNat) = value.toNat := by
  have hvalue : ofLittleEndian (toLittleEndian 8 value.toNat) = value.toNat :=
    ofLittleEndian_toLittleEndian (show value.toNat < 256 ^ 8 by have := value.isLt; omega)
  cases order with
  | little => exact hvalue
  | big =>
    show ofLittleEndian (toLittleEndian 8 value.toNat).reverse.reverse = _
    rw [List.reverse_reverse]
    exact hvalue

theorem exists_times (h : members.createRequestBody order reading = .ok requestBody) :
    ∃ times, getOffsetTimestamps reading = .ok times := by
  unfold RequestMembers.createRequestBody at h
  cases htimes : getOffsetTimestamps reading with
  | error error =>
    rw [htimes] at h
    cases h
  | ok times => exact ⟨times, rfl⟩

theorem createRequestBody_of_times {times : OffsetTimestamps}
    (htimes : getOffsetTimestamps reading = .ok times) :
    members.createRequestBody order reading =
      .ok ((newRequestVariant order times members.imageVersion members.siteId members.bootType
        (members.pending.filterMap PendingEvent.singular?)
        (members.pending.filterMap PendingEvent.aggregate?)).swapBytesIfBigEndian order) := by
  unfold RequestMembers.createRequestBody
  rw [htimes]
  rfl

/-- The server reads what the request says. -/
theorem readLittleEndian_of_times {times : OffsetTimestamps}
    (htimes : getOffsetTimestamps reading = .ok times)
    (h : members.createRequestBody order reading = .ok requestBody) :
    requestBody.readLittleEndian = members.meaning order times := by
  rw [createRequestBody_of_times htimes] at h
  rw [← Except.ok.inj h, RequestVariant.readLittleEndian_swapBytesIfBigEndian]
  unfold RequestVariant.map newRequestVariant RequestMembers.meaning
  dsimp only
  rw [ofMemory_toMemory, ofMemory_toMemory]

/-- **The two ways of swapping agree**: swapping the new timestamps and putting them into the
swapped body gives the body that would have been swapped as a whole, byte for byte. -/
theorem getUpdatedRequestBody_eq (h : members.createRequestBody order first = .ok requestBody)
    (reading : ClockReading) :
    getUpdatedRequestBody order requestBody reading = members.createRequestBody order reading := by
  obtain ⟨times, htimes⟩ := exists_times h
  rw [createRequestBody_of_times htimes] at h
  rw [← Except.ok.inj h]
  unfold getUpdatedRequestBody RequestMembers.createRequestBody
  congr 1
  funext next
  unfold newRequestVariant
  rw [toMemory_swapBytes64IfBigEndian, toMemory_swapBytes64IfBigEndian]
  cases order with
  | little => rfl
  | big =>
    have hreverse : ∀ n, (ByteOrder.big.toMemory 8 n).reverse = toLittleEndian 8 n :=
      fun n => List.reverse_reverse (toLittleEndian 8 n)
    show _ = RequestVariant.byteswap _
    unfold RequestVariant.byteswap RequestVariant.map
    dsimp only
    rw [hreverse, hreverse]
    rfl

/-- So a retry sends what a first attempt at its time would have sent. -/
theorem createRequestBody_of_bodyAfter {retries : List ClockReading}
    (h : members.bodyAfter order first retries = .ok requestBody) :
    members.createRequestBody order (retries.getLastD first) = .ok requestBody := by
  unfold RequestMembers.bodyAfter at h
  cases hcreated : members.createRequestBody order first with
  | error error =>
    rw [hcreated] at h
    cases h
  | ok created =>
    rw [hcreated] at h
    replace h : retries.foldlM (getUpdatedRequestBody order) created = .ok requestBody := h
    -- from each body to the next, of which as much is known
    induction retries generalizing first created with
    | nil => exact hcreated.trans h
    | cons reading retries ih =>
      rw [List.foldlM_cons, getUpdatedRequestBody_eq hcreated] at h
      cases hnext : members.createRequestBody order reading with
      | error error =>
        rw [hnext] at h
        cases h
      | ok next =>
        rw [hnext] at h
        rw [List.getLastD_cons]
        exact ih next hnext h

theorem exists_createRequestBody_of_bodyAfter {retries : List ClockReading}
    (h : members.bodyAfter order first retries = .ok requestBody) :
    ∃ created, members.createRequestBody order first = .ok created := by
  unfold RequestMembers.bodyAfter at h
  cases hcreated : members.createRequestBody order first with
  | error error =>
    rw [hcreated] at h
    cases h
  | ok created => exact ⟨created, rfl⟩

end Attempts

/-- **Retries send the same events with fresh timestamps**, to a server that reads little-endian
data, on machines of both byte orders. -/
theorem retries_resend (order : ByteOrder) (members : RequestMembers) (first : ClockReading)
    (retries : List ClockReading) {sent : RequestVariant Bytes}
    (hsent : members.bodyAfter order first retries = .ok sent) :
    ∃ firstSent times,
      members.bodyAfter order first [] = .ok firstSent ∧
      getOffsetTimestamps (retries.getLastD first) = .ok times ∧
      sent.readLittleEndian =
        { firstSent.readLittleEndian with
          relativeTimestamp := times.relative.toNat
          absoluteTimestamp := times.absolute.toNat } ∧
      sent.readLittleEndian = members.meaning order times ∧
      members.createRequestBody order (retries.getLastD first) = .ok sent := by
  have hlast := createRequestBody_of_bodyAfter hsent
  obtain ⟨firstSent, hfirst⟩ := exists_createRequestBody_of_bodyAfter hsent
  obtain ⟨times, htimes⟩ := exists_times hlast
  obtain ⟨firstTimes, hfirstTimes⟩ := exists_times hfirst
  have hread := readLittleEndian_of_times htimes hlast
  refine ⟨firstSent, times, ?_, htimes, ?_, hread, hlast⟩
  · unfold RequestMembers.bodyAfter
    rw [hfirst]
    rfl
  · rw [hread, readLittleEndian_of_times hfirstTimes hfirst]
    rfl

/-- On a big-endian machine, an event with a nested payload, and an aggregate. -/
def sampleMembers : RequestMembers where
  imageVersion := "eos-amd64".toList
  siteId := [("city".toList, "Lima".toList)]
  bootType := 1
  pending :=
    [.singular ⟨[1, 2], "5.1".toList, [0, 0, 0, 0, 0, 0, 1, 2],
      some (.container .variant [.container .tuple [.number .int16 [3, 4], .byte 9]])⟩,
      .aggregate ⟨[5], "5.1".toList, "2024-01-01".toList, [0, 0, 0, 7], none⟩]

theorem retries_resend_big :
    ∃ sent firstSent times,
      sampleMembers.bodyAfter .big ⟨some 5, some 6, .ok 0⟩ [⟨some 300, some 301, .ok 1⟩] =
        .ok sent ∧
      sampleMembers.bodyAfter .big ⟨some 5, some 6, .ok 0⟩ [] = .ok firstSent ∧
      getOffsetTimestamps ⟨some 300, some 301, .ok 1⟩ = .ok times ∧
      sent.readLittleEndian =
        { firstSent.readLittleEndian with
          relativeTimestamp := times.relative.toNat
          absoluteTimestamp := times.absolute.toNat } ∧
      sent.readLittleEndian = sampleMembers.meaning .big times ∧
      sampleMembers.createRequestBody .big ⟨some 300, some 301, .ok 1⟩ = .ok sent := by
  obtain ⟨firstSent, times, h⟩ := retries_resend .big sampleMembers ⟨some 5, some 6, .ok 0⟩
    [⟨some 300, some 301, .ok 1⟩] rfl
  exact ⟨_, firstSent, times, rfl, h⟩

end EventRecorder
