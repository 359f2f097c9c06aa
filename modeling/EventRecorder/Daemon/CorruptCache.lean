import EventRecorder.Daemon.RequestBody

/-!
# Corrupt cache contents

An element without a null byte or without a valid type string makes a read fail with
`G_IO_ERROR_INVALID_DATA`, and the daemon removes everything, unless the same read has failed to cut
off a zeroed tail: the error is that failure then, and nothing is removed.  A variant that is not in
normal form, or that is no event, ends the process; it stays on disk and is read again after a
restart.
-/

namespace EventRecorder

open Theory

/-! ## 1. Elements with arbitrary bytes -/

namespace EmerPersistentCache

variable {glib : VariantLibrary} {order : ByteOrder} {elem : Bytes} {elems : List Bytes}

/-- The variant that an element spells, if it has a valid type string and a null byte behind it. -/
def elemVariant (glib : VariantLibrary) (elem : Bytes) : Option GVariant :=
  let typeString := elem.takeWhile (· ≠ 0)
  if typeString.length = elem.length then none
  else if !glib.typeStringIsValid typeString then none
  else some ⟨typeString, elem.drop (typeString.length + 1)⟩

theorem readVariant_of_none (h : elemVariant glib elem = none) :
    readVariant glib order elem = .error corruptData := by
  unfold elemVariant at h
  unfold readVariant
  simp only at h ⊢
  split
  · rfl
  · rename_i hnull
    rw [if_neg hnull] at h
    split
    · rfl
    · rename_i hvalid
      rw [if_neg hvalid] at h
      cases h

theorem readVariant_of_some {variant : GVariant} (h : elemVariant glib elem = some variant) :
    readVariant glib order elem = regularizePostStorage glib order variant := by
  unfold elemVariant at h
  unfold readVariant
  simp only at h ⊢
  split
  · rename_i hnull
    rw [if_pos hnull] at h
    cases h
  · rename_i hnull
    rw [if_neg hnull] at h
    split
    · rename_i hvalid
      rw [if_pos hvalid] at h
      cases h
    · rename_i hvalid
      rw [if_neg hvalid] at h
      rw [Option.some.inj h]

theorem regularizePostStorage_of_normal (laws : glib.Lawful) {variant : GVariant}
    (h : glib.isNormalForm variant = true) :
    ∃ event, regularizePostStorage glib order variant = .ok event ∧
      glib.isNormalForm event = true ∧ event.typeString = variant.typeString := by
  unfold regularizePostStorage
  rw [h]
  cases order with
  | little => exact ⟨variant, rfl, h, rfl⟩
  | big =>
    exact ⟨glib.byteswap variant, rfl, laws.isNormalForm_byteswap variant h,
      (laws.swapKeepsSize variant h).1⟩

/-- An event that is read from an element: in normal form and of the type that the element says. -/
def ReadFrom (glib : VariantLibrary) (elem : Bytes) (event : GVariant) : Prop :=
  glib.isNormalForm event = true ∧
    ∃ variant, elemVariant glib elem = some variant ∧ event.typeString = variant.typeString

/-- The variants in front of the first element that spells none are in normal form. -/
def NormalUpToCorruption (glib : VariantLibrary) (elems : List Bytes) : Prop :=
  ∀ elem ∈ elems.takeWhile (fun elem => (elemVariant glib elem).isSome),
    ∀ variant, elemVariant glib elem = some variant → glib.isNormalForm variant = true

theorem normalUpToCorruption_cons {variant : GVariant} (h : elemVariant glib elem = some variant) :
    NormalUpToCorruption glib (elem :: elems) ↔
      glib.isNormalForm variant = true ∧ NormalUpToCorruption glib elems := by
  unfold NormalUpToCorruption
  rw [List.takeWhile_cons, h, Option.isSome_some, if_pos rfl, List.forall_mem_cons, h]
  constructor
  · rintro ⟨hfirst, hrest⟩
    exact ⟨hfirst variant rfl, hrest⟩
  · rintro ⟨hfirst, hrest⟩
    exact ⟨fun other hother => by rwa [← Option.some.inj hother], hrest⟩

/-- A list of elements is decoded, or it is corrupt. -/
theorem mapM_of_normal (laws : glib.Lawful) (h : NormalUpToCorruption glib elems) :
    (∃ events, elems.mapM (readVariant glib order) = .ok events ∧
        List.Forall₂ (ReadFrom glib) elems events) ∨
      elems.mapM (readVariant glib order) = .error corruptData ∧
        ∃ elem ∈ elems, elemVariant glib elem = none := by
  induction elems with
  | nil => exact .inl ⟨[], rfl, .nil⟩
  | cons elem elems ih =>
    rw [List.mapM_cons]
    cases hspells : elemVariant glib elem with
    | none =>
      right
      rw [readVariant_of_none hspells]
      exact ⟨rfl, elem, List.mem_cons_self, hspells⟩
    | some variant =>
      obtain ⟨hnormal, hrest⟩ := (normalUpToCorruption_cons hspells).mp h
      obtain ⟨event, hregular, hevent, htype⟩ :=
        @regularizePostStorage_of_normal glib order laws variant hnormal
      rw [readVariant_of_some hspells, hregular]
      cases ih hrest with
      | inl hdecoded =>
        obtain ⟨events, hmap, hevents⟩ := hdecoded
        left
        rw [hmap]
        exact ⟨event :: events, rfl, .cons ⟨hevent, variant, hspells, htype⟩ hevents⟩
      | inr hcorrupt =>
        obtain ⟨hmap, other, hother, hnone⟩ := hcorrupt
        right
        rw [hmap]
        exact ⟨rfl, other, List.mem_cons_of_mem _ hother, hnone⟩

/-- A variant that is not in normal form ends the process, unless a corrupt element is in front. -/
theorem normal_of_mapM (h : elems.mapM (readVariant glib order) ≠ .error .aborts) :
    NormalUpToCorruption glib elems := by
  induction elems with
  | nil => exact fun elem helem => by cases helem
  | cons elem elems ih =>
    cases hspells : elemVariant glib elem with
    | none =>
      unfold NormalUpToCorruption
      rw [List.takeWhile_cons, hspells]
      exact fun other hother => by cases hother
    | some variant =>
      rw [List.mapM_cons, readVariant_of_some hspells] at h
      rw [normalUpToCorruption_cons hspells]
      by_cases hnormal : glib.isNormalForm variant = true
      · refine ⟨hnormal, ih fun haborts => h ?_⟩
        unfold regularizePostStorage
        rw [hnormal, haborts]
        cases order with
        | little => rfl
        | big => rfl
      · apply absurd _ h
        unfold regularizePostStorage
        rw [Bool.eq_false_iff.mpr hnormal]
        rfl

end EmerPersistentCache

/-! ## 2. What a read selects -/

/-- The elements that a read with a budget gets from framed elements: none behind an empty one. -/
def selectedElems (elems : List Bytes) (maxBytes : Nat) : List Bytes :=
  takeWithin List.length maxBytes (elems.takeWhile (· ≠ []))

/-- The read comes to an empty element, and cuts it off with all behind it. -/
def CutsOff (elems : List Bytes) (maxBytes : Nat) : Prop :=
  selectedElems elems maxBytes = elems.takeWhile (· ≠ []) ∧ elems.takeWhile (· ≠ []) ≠ elems

instance (elems : List Bytes) (maxBytes : Nat) : Decidable (CutsOff elems maxBytes) :=
  inferInstanceAs (Decidable (_ ∧ _))

/-- What a read of framed elements leaves in `*error` while it succeeds. -/
def errorOfCut (elems : List Bytes) (maxBytes : Nat) (saved : Bool) : Option GError :=
  if CutsOff elems maxBytes ∧ saved = false then some .failed else none

theorem errorLeft_eq (file : EmerCircularFile) (elems : List Bytes) (maxBytes : Nat)
    (saved : Bool) :
    file.errorLeft (decide (CutsOff elems maxBytes)) saved = errorOfCut elems maxBytes saved := by
  unfold errorOfCut
  cases saved with
  | true => rw [EmerCircularFile.errorLeft_saved, if_neg (by simp)]
  | false =>
    by_cases hcuts : CutsOff elems maxBytes
    · rw [decide_eq_true hcuts, if_pos ⟨hcuts, rfl⟩]
      rfl
    · rw [decide_eq_false hcuts, if_neg fun h => hcuts h.1]
      rfl

/-- A read of framed elements decodes what it selects. -/
theorem EmerPersistentCache.read_selected {glib : VariantLibrary} {order : ByteOrder}
    {persistentCache : EmerPersistentCache} {bytes : Bytes} {elems : List Bytes}
    (h : HoldsBytes persistentCache.variantFile bytes (encode elems)) (maxBytes : Nat)
    (saved : Bool) :
    ∃ token hasInvalid after, persistentCache.read glib order maxBytes saved =
      ((((selectedElems elems maxBytes).mapM (readVariant glib order)).mapError
        (reportedError (errorOfCut elems maxBytes saved))).map
          fun variants => (variants, token), hasInvalid, after) := by
  rw [EmerPersistentCache.read, h.read_frames maxBytes saved rfl rfl]
  dsimp only
  rw [← errorLeft_eq]
  exact ⟨_, _, _, rfl⟩

/-! ## 3. Corruption -/

/-- The process does not end.  Either the selected elements are decoded to events in normal form,
which are added, or the read has failed on invalid data, the cache is empty and the buffer is
next. -/
def CorruptionHandled (glib : VariantLibrary) (order : ByteOrder)
    (persistentCache : EmerPersistentCache) (selected : List Bytes) (maxBytes : Nat) (saved : Bool)
    (builders : EventBuilders) : Prop :=
  (∃ stored events after,
      selected.mapM (EmerPersistentCache.readVariant glib order) = .ok events ∧
      addStoredEventsToBuilders glib order persistentCache maxBytes saved true builders =
        (.ok (stored, builders.with events), after) ∧
      ∀ event ∈ events, glib.isNormalForm event = true ∧
        (event.IsSingular ∨ event.IsAggregate)) ∨
    ∃ message after, (persistentCache.read glib order maxBytes saved).1 =
        .error (.invalidData message) ∧
      addStoredEventsToBuilders glib order persistentCache maxBytes saved true builders =
        (.ok (⟨0, 0, 0, true⟩, builders), after) ∧
      after.variantFile.size = 0

/-- The elements that are selected spell events, unless one of them is found to be corrupt before a
variant that is not in normal form is met. -/
def CaughtOrSound (glib : VariantLibrary) (elems : List Bytes) : Prop :=
  EmerPersistentCache.NormalUpToCorruption glib elems ∧
    ((∀ elem ∈ elems, EmerPersistentCache.elemVariant glib elem ≠ none) →
      ∀ elem ∈ elems, ∀ variant, EmerPersistentCache.elemVariant glib elem = some variant →
        variant.IsSingular ∨ variant.IsAggregate)

/-- No error is left that would stand for the one of a corrupt element. -/
def ReportsCorruption (glib : VariantLibrary) (elems : List Bytes) (maxBytes : Nat)
    (saved : Bool) : Prop :=
  (∃ elem ∈ selectedElems elems maxBytes, EmerPersistentCache.elemVariant glib elem = none) →
    CutsOff elems maxBytes → saved = true

theorem addEventsToBuilders_ok {builders builders' : EventBuilders} {events : List GVariant}
    (h : addEventsToBuilders builders events = .ok builders') :
    ∀ event ∈ events, event.IsSingular ∨ event.IsAggregate := by
  induction events generalizing builders with
  | nil => exact fun event hevent => by cases hevent
  | cons event events ih =>
    rw [addEventsToBuilders] at h
    rw [List.forall_mem_cons]
    by_cases hsingular : event.IsSingular
    · rw [if_pos hsingular] at h
      exact ⟨.inl hsingular, ih h⟩
    · rw [if_neg hsingular] at h
      by_cases haggregate : event.IsAggregate
      · rw [if_pos haggregate] at h
        exact ⟨.inr haggregate, ih h⟩
      · rw [if_neg haggregate] at h
        cases h

/-- The types of the events are those that the elements say. -/
theorem isEvent_iff {glib : VariantLibrary} {elems : List Bytes} {events : List GVariant}
    (h : List.Forall₂ (EmerPersistentCache.ReadFrom glib) elems events) :
    (∀ event ∈ events, event.IsSingular ∨ event.IsAggregate) ↔
      ∀ elem ∈ elems, ∀ variant, EmerPersistentCache.elemVariant glib elem = some variant →
        variant.IsSingular ∨ variant.IsAggregate := by
  induction h with
  | nil => exact iff_of_true (fun _ hmem => by cases hmem) fun _ hmem => by cases hmem
  | @cons elem event elems events hread hrest ih =>
    obtain ⟨-, variant, hspells, htype⟩ := hread
    rw [List.forall_mem_cons, List.forall_mem_cons, ih, hspells]
    have hsame : (event.IsSingular ∨ event.IsAggregate) ↔
        (variant.IsSingular ∨ variant.IsAggregate) := by
      unfold GVariant.IsSingular GVariant.IsAggregate
      rw [htype]
    rw [hsame]
    constructor
    · rintro ⟨hfirst, hlater⟩
      exact ⟨fun other hother => by rwa [← Option.some.inj hother], hlater⟩
    · rintro ⟨hfirst, hlater⟩
      exact ⟨hfirst variant rfl, hlater⟩

theorem forall_ne_none {glib : VariantLibrary} {elems : List Bytes} {events : List GVariant}
    (h : List.Forall₂ (EmerPersistentCache.ReadFrom glib) elems events) :
    (∀ elem ∈ elems, EmerPersistentCache.elemVariant glib elem ≠ none) ∧
      ∀ event ∈ events, glib.isNormalForm event = true := by
  induction h with
  | nil => exact ⟨(fun _ hmem => by cases hmem), fun _ hmem => by cases hmem⟩
  | @cons elem event elems events hread hrest ih =>
    obtain ⟨hnormal, variant, hspells, -⟩ := hread
    rw [List.forall_mem_cons, List.forall_mem_cons]
    exact ⟨⟨by rw [hspells]; exact Option.some_ne_none _, ih.1⟩, hnormal, ih.2⟩

theorem purge_saved_size (file : EmerCircularFile) : (file.purge true).2.size = 0 := by
  rw [EmerCircularFile.purge]
  split
  · assumption
  · rfl

/-- A request that is built at all was built over elements that were caught or sound. -/
theorem caughtOrSound_of_added {glib : VariantLibrary} {order : ByteOrder} (laws : glib.Lawful)
    {persistentCache after : EmerPersistentCache} {selected : List Bytes} {maxBytes token : Nat}
    {saved hasInvalid : Bool} {builders : EventBuilders} {errorLeft : Option GError}
    (hread : persistentCache.read glib order maxBytes saved =
      (((selected.mapM (EmerPersistentCache.readVariant glib order)).mapError
        (EmerPersistentCache.reportedError errorLeft)).map
          fun variants => (variants, token), hasInvalid, after))
    {added : StoredEvents × EventBuilders}
    (hadded : (addStoredEventsToBuilders glib order persistentCache maxBytes saved true
      builders).1 = .ok added) : CaughtOrSound glib selected := by
  rw [addStoredEventsToBuilders, hread] at hadded
  have hnormal : EmerPersistentCache.NormalUpToCorruption glib selected := by
    apply @EmerPersistentCache.normal_of_mapM glib order
    intro haborts
    rw [haborts] at hadded
    cases hadded
  refine ⟨hnormal, fun hspelled => ?_⟩
  cases @EmerPersistentCache.mapM_of_normal glib order selected laws hnormal with
  | inl hdecoded =>
    obtain ⟨events, hmap, hevents⟩ := hdecoded
    rw [hmap] at hadded
    rw [← isEvent_iff hevents]
    cases hbuilt : addEventsToBuilders builders events with
    | error error =>
      simp only [Except.mapError, Except.map, hbuilt] at hadded
      cases hadded
    | ok built => exact addEventsToBuilders_ok hbuilt
  | inr hcorrupt =>
    obtain ⟨-, elem, helem, hnone⟩ := hcorrupt
    exact absurd hnone (hspelled elem helem)

/-- Selected elements that are decoded spell variants, so that a handled corruption has been
reported as one. -/
theorem reportsCorruption_of_handled {glib : VariantLibrary} {order : ByteOrder}
    (laws : glib.Lawful) {persistentCache after : EmerPersistentCache} {elems : List Bytes}
    {maxBytes token : Nat} {saved hasInvalid : Bool} {builders : EventBuilders}
    (hread : persistentCache.read glib order maxBytes saved =
      ((((selectedElems elems maxBytes).mapM (EmerPersistentCache.readVariant glib order)).mapError
        (EmerPersistentCache.reportedError (errorOfCut elems maxBytes saved))).map
          fun variants => (variants, token), hasInvalid, after))
    (hnormal : EmerPersistentCache.NormalUpToCorruption glib (selectedElems elems maxBytes))
    (hhandled : CorruptionHandled glib order persistentCache (selectedElems elems maxBytes) maxBytes
      saved builders) : ReportsCorruption glib elems maxBytes saved := by
  rintro ⟨elem, helem, hnone⟩ hcuts
  cases hsaved : saved with
  | true => rfl
  | false =>
    have herror : errorOfCut elems maxBytes saved = some .failed := if_pos ⟨hcuts, hsaved⟩
    exfalso
    cases @EmerPersistentCache.mapM_of_normal glib order (selectedElems elems maxBytes) laws hnormal
      with
    | inl hdecoded =>
      obtain ⟨events, -, hevents⟩ := hdecoded
      exact (forall_ne_none hevents).1 elem helem hnone
    | inr hcorrupt =>
      cases hhandled with
      | inl hsound =>
        obtain ⟨stored, events, after', hmap, -⟩ := hsound
        cases hmap.symm.trans hcorrupt.1
      | inr hcaught =>
        -- the error that is left is not that of invalid data
        obtain ⟨message, after', hinvalid, -⟩ := hcaught
        rw [hread, hcorrupt.1, herror] at hinvalid
        cases hinvalid

/-- Booleans, whose normal forms are 0 and 1, and bytes. -/
def booleanVariants : VariantLibrary :=
  ⟨id, id, fun variant => variant.typeString = [98] ∧ (variant.data = [0] ∨ variant.data = [1]) ∨
      variant.typeString = [121] ∧ variant.data.length = 1,
    fun typeString => typeString = [98] ∨ typeString = [121]⟩

theorem booleanVariants_lawful : booleanVariants.Lawful where
  getNormalForm_eq := fun _ _ => rfl
  byteswap_byteswap := fun _ _ => rfl
  swapKeepsSize := fun _ _ => ⟨rfl, rfl⟩
  isNormalForm_byteswap := fun _ h => h

/-- A cache of 64 bytes with framed elements. -/
def cacheWith (elems : List Bytes) : EmerPersistentCache :=
  ⟨⟨⟨some (encode elems), .absent⟩, KeyFile.empty, [], 64, (encode elems).length, 0⟩⟩

theorem cacheWith_holdsBytes {elems : List Bytes} (hlength : (encode elems).length ≤ 64) :
    HoldsBytes (cacheWith elems).variantFile (encode elems) (encode elems) where
  dataFile := rfl
  maxSize_lt := by
    show 64 < 2 ^ 64
    decide
  size_eq := rfl
  size_le := hlength
  head_lt := by
    show 0 < 64
    decide
  stored := ⟨hlength, ringHolds_self hlength, .inl (Nat.zero_add _).le⟩

/-- What is not handled, over the framed elements of a cache. -/
def Unhandled (elems : List Bytes) (saved : Bool) (answer : Except GError StoredEvents) : Prop :=
  HoldsBytes (cacheWith elems).variantFile (encode elems) (encode elems) ∧
    (addStoredEventsToBuilders booleanVariants .little (cacheWith elems) 100 saved true
      ⟨[], []⟩).1.map Prod.fst = answer ∧
    ¬ CorruptionHandled booleanVariants .little (cacheWith elems) (selectedElems elems 100) 100
      saved ⟨[], []⟩

theorem unhandled_of_aborts {elems : List Bytes} {saved : Bool}
    (hlength : (encode elems).length ≤ 64)
    (haborts : (addStoredEventsToBuilders booleanVariants .little (cacheWith elems) 100 saved true
      ⟨[], []⟩).1.map Prod.fst = .error .aborts) : Unhandled elems saved (.error .aborts) := by
  refine ⟨cacheWith_holdsBytes hlength, haborts, fun hhandled => ?_⟩
  cases hhandled with
  | inl hsound =>
    obtain ⟨stored, events, after, -, hadded, -⟩ := hsound
    rw [hadded] at haborts
    cases haborts
  | inr hcaught =>
    obtain ⟨message, after, -, hadded, -⟩ := hcaught
    rw [hadded] at haborts
    cases haborts

end EventRecorder
