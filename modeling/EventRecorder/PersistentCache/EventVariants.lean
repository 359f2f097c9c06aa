import EventRecorder.PersistentCache.Lawful
import EventRecorder.PersistentCache.RoundTrip

/-!
# Events as variants

The daemon records variants of two types.  The data of an event without a payload is its ID, the OS
version, for an aggregate its date, the number it reports and the framing offsets.  The number is
all that a byte swap changes.
-/

namespace EventRecorder

open Theory

/-- `SINGULAR_TYPE_STRING` -/
def singularTypeString : Bytes := "(aysxmv)".toList.map Char.toUInt8

/-- `AGGREGATE_TYPE_STRING` -/
def aggregateTypeString : Bytes := "(ayssumv)".toList.map Char.toUInt8

/-! ## 1. Serialised events -/

/-- How the events of a type are serialised: the strings behind the ID with their padding, the size
of the number, and the framing offsets. -/
structure EventLayout where
  strings : Bytes
  numberSize : Nat
  framing : Bytes

/-- The bytes of an event ID. -/
def eventIdSize : Nat := 16

namespace EventLayout

variable (layout : EventLayout)

def serialised (eventId number : Bytes) : Bytes :=
  eventId ++ layout.strings ++ number ++ layout.framing

def eventIdIn (data : Bytes) : Bytes := data.take eventIdSize

def numberIn (data : Bytes) : Bytes :=
  (data.drop (eventIdSize + layout.strings.length)).take layout.numberSize

/-- Whether data is that of an event. -/
def isNormalForm (data : Bytes) : Bool :=
  (eventIdIn data).length = eventIdSize ∧ (layout.numberIn data).length = layout.numberSize ∧
    data = layout.serialised (eventIdIn data) (layout.numberIn data)

def byteswap (data : Bytes) : Bytes :=
  layout.serialised (eventIdIn data) (layout.numberIn data).reverse

variable {layout} {eventId number data : Bytes}

theorem eventIdIn_serialised (hid : eventId.length = eventIdSize) :
    eventIdIn (layout.serialised eventId number) = eventId := by
  rw [eventIdIn, serialised, List.append_assoc, List.append_assoc, ← hid, List.take_left]

theorem numberIn_serialised (hid : eventId.length = eventIdSize)
    (hnumber : number.length = layout.numberSize) :
    layout.numberIn (layout.serialised eventId number) = number := by
  have hfront : (eventId ++ layout.strings).length = eventIdSize + layout.strings.length := by
    rw [List.length_append, hid]
  rw [numberIn, serialised, ← hfront, List.append_assoc _ number, List.drop_left, ← hnumber,
    List.take_left]

theorem isNormalForm_serialised (hid : eventId.length = eventIdSize)
    (hnumber : number.length = layout.numberSize) :
    layout.isNormalForm (layout.serialised eventId number) = true := by
  rw [isNormalForm, eventIdIn_serialised hid, numberIn_serialised hid hnumber, decide_eq_true_eq]
  exact ⟨hid, hnumber, rfl⟩

/-- Data in normal form is that of an event with an ID and a number. -/
theorem exists_serialised (h : layout.isNormalForm data = true) :
    ∃ eventId number, eventId.length = eventIdSize ∧ number.length = layout.numberSize ∧
      data = layout.serialised eventId number := by
  rw [isNormalForm, decide_eq_true_eq] at h
  exact ⟨_, _, h⟩

theorem byteswap_serialised (hid : eventId.length = eventIdSize)
    (hnumber : number.length = layout.numberSize) :
    layout.byteswap (layout.serialised eventId number) =
      layout.serialised eventId number.reverse := by
  rw [byteswap, eventIdIn_serialised hid, numberIn_serialised hid hnumber]

theorem length_serialised (eventId number : Bytes) :
    (layout.serialised eventId number).length =
      eventId.length + layout.strings.length + number.length + layout.framing.length := by
  rw [serialised, List.length_append, List.length_append, List.length_append]

end EventLayout

/-! ## 2. The events of a system -/

/-- The strings are those of version 4.0.1, and of one day. -/
def eventLayout (typeString : Bytes) : Option EventLayout :=
  let osVersion := [52, 46, 48, 46, 49, 0]
  let date := [50, 48, 50, 49, 45, 48, 57, 45, 49, 53, 0]
  if typeString = singularTypeString then some ⟨osVersion ++ [0, 0], 8, [22, 16]⟩
  else if typeString = aggregateTypeString then
    some ⟨osVersion ++ date ++ [0, 0, 0], 4, [33, 22, 16]⟩
  else none

/-- GLib's functions on such events. -/
def eventVariants : VariantLibrary where
  getNormalForm := id
  byteswap := fun variant =>
    match eventLayout variant.typeString with
    | none => variant
    | some layout => { variant with data := layout.byteswap variant.data }
  isNormalForm := fun variant =>
    match eventLayout variant.typeString with
    | none => false
    | some layout => layout.isNormalForm variant.data
  typeStringIsValid := fun typeString => (eventLayout typeString).isSome

/-- A variant in normal form is an event with an ID and a number. -/
theorem exists_event {variant : GVariant} (h : eventVariants.isNormalForm variant = true) :
    ∃ layout eventId number, eventLayout variant.typeString = some layout ∧
      eventId.length = eventIdSize ∧ number.length = layout.numberSize ∧
      variant.data = layout.serialised eventId number := by
  dsimp only [eventVariants] at h
  cases hlayout : eventLayout variant.typeString with
  | none =>
    rw [hlayout] at h
    cases h
  | some layout =>
    rw [hlayout] at h
    obtain ⟨eventId, number, hevent⟩ := EventLayout.exists_serialised h
    exact ⟨layout, eventId, number, rfl, hevent⟩

section Event

variable {typeString eventId number : Bytes} {layout : EventLayout}

theorem isNormalForm_event (hlayout : eventLayout typeString = some layout)
    (hid : eventId.length = eventIdSize) (hnumber : number.length = layout.numberSize) :
    eventVariants.isNormalForm ⟨typeString, layout.serialised eventId number⟩ = true := by
  dsimp only [eventVariants]
  rw [hlayout]
  exact EventLayout.isNormalForm_serialised hid hnumber

theorem byteswap_event (hlayout : eventLayout typeString = some layout)
    (hid : eventId.length = eventIdSize) (hnumber : number.length = layout.numberSize) :
    eventVariants.byteswap ⟨typeString, layout.serialised eventId number⟩ =
      ⟨typeString, layout.serialised eventId number.reverse⟩ := by
  dsimp only [eventVariants]
  rw [hlayout]
  dsimp only
  rw [EventLayout.byteswap_serialised hid hnumber]

theorem eventVariants_lawful : eventVariants.Lawful where
  getNormalForm_eq := fun _ _ => rfl
  byteswap_byteswap := by
    rintro ⟨typeString, data⟩ h
    obtain ⟨layout, eventId, number, hlayout, hid, hnumber, rfl⟩ := exists_event h
    rw [byteswap_event hlayout hid hnumber,
      byteswap_event hlayout hid (List.length_reverse.trans hnumber), List.reverse_reverse]
  swapKeepsSize := by
    rintro ⟨typeString, data⟩ h
    obtain ⟨layout, eventId, number, hlayout, hid, hnumber, rfl⟩ := exists_event h
    rw [byteswap_event hlayout hid hnumber]
    refine ⟨rfl, ?_⟩
    rw [EventLayout.length_serialised, EventLayout.length_serialised, List.length_reverse]
  isNormalForm_byteswap := by
    rintro ⟨typeString, data⟩ h
    obtain ⟨layout, eventId, number, hlayout, hid, hnumber, rfl⟩ := exists_event h
    rw [byteswap_event hlayout hid hnumber]
    exact isNormalForm_event hlayout hid (List.length_reverse.trans hnumber)

/-- An event is storable: its type string is valid, and spelt without a null byte. -/
theorem storable_event (hlayout : eventLayout typeString = some layout)
    (hid : eventId.length = eventIdSize) (hnumber : number.length = layout.numberSize) :
    (⟨typeString, layout.serialised eventId number⟩ : GVariant).Storable eventVariants where
  isNormalForm := isNormalForm_event hlayout hid hnumber
  typeStringIsValid := by
    show (eventLayout typeString).isSome = true
    rw [hlayout]
    rfl
  nullFree := by
    show 0 ∉ typeString
    by_cases hsingular : typeString = singularTypeString
    · rw [hsingular]
      decide
    by_cases haggregate : typeString = aggregateTypeString
    · rw [haggregate]
      decide
    rw [eventLayout, if_neg hsingular, if_neg haggregate] at hlayout
    cases hlayout

end Event

/-! ## 3. Recorded events -/

/-- A storable variant that is short, as the daemon keeps it. -/
def StorableVariant.ofStorable {glib : VariantLibrary} (laws : glib.Lawful) (order : ByteOrder)
    {variant : GVariant} (h : variant.Storable glib)
    (hshort : emerPersistentCacheCost variant < 2 ^ 30) : StorableVariant glib order where
  variant := variant
  short := (EmerPersistentCache.length_storedElem laws h).trans_lt hshort
  readBack := EmerPersistentCache.readVariant_storedElem laws h

def sampleEventId : Bytes := (List.range 16).map Nat.toUInt8

/-- A singular event at a time, in little-endian byte order. -/
def sampleSingular (relativeTimestamp : Nat) : GVariant :=
  ⟨singularTypeString, sampleEventId ++ [52, 46, 48, 46, 49, 0, 0, 0] ++
    toLittleEndian 8 relativeTimestamp ++ [22, 16]⟩

/-- An aggregate event with a counter. -/
def sampleAggregate (counter : Nat) : GVariant :=
  ⟨aggregateTypeString, sampleEventId ++ [52, 46, 48, 46, 49, 0, 50, 48, 50, 49, 45, 48, 57, 45, 49,
    53, 0, 0, 0, 0] ++ toLittleEndian 4 counter ++ [33, 22, 16]⟩

theorem sampleSingular_storable (relativeTimestamp : Nat) :
    (sampleSingular relativeTimestamp).Storable eventVariants :=
  @storable_event singularTypeString sampleEventId (toLittleEndian 8 relativeTimestamp) _ rfl rfl
    (length_toLittleEndian 8 relativeTimestamp)

theorem sampleAggregate_storable (counter : Nat) :
    (sampleAggregate counter).Storable eventVariants :=
  @storable_event aggregateTypeString sampleEventId (toLittleEndian 4 counter) _ rfl rfl
    (length_toLittleEndian 4 counter)

theorem sampleSingular_cost (relativeTimestamp : Nat) :
    emerPersistentCacheCost (sampleSingular relativeTimestamp) = 43 := by
  simp [emerPersistentCacheCost, sampleSingular, sampleEventId, length_toLittleEndian]
  decide

theorem sampleAggregate_cost (counter : Nat) :
    emerPersistentCacheCost (sampleAggregate counter) = 53 := by
  simp [emerPersistentCacheCost, sampleAggregate, sampleEventId, length_toLittleEndian]
  decide

def storedSingular (relativeTimestamp : Nat) : StorableVariant eventVariants .little :=
  .ofStorable eventVariants_lawful .little (sampleSingular_storable relativeTimestamp) (by
    rw [sampleSingular_cost]
    decide)

def storedAggregate (counter : Nat) : StorableVariant eventVariants .little :=
  .ofStorable eventVariants_lawful .little (sampleAggregate_storable counter) (by
    rw [sampleAggregate_cost]
    decide)

end EventRecorder
