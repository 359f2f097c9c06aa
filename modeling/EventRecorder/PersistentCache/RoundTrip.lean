import EventRecorder.PersistentCache.ExactlyOnce
import EventRecorder.CircularFile.Refinement
import EventRecorder.CircularFile.Overrun

/-!
# Variants survive storage

A variant in normal form is written in little-endian byte order and read back as it was, on either
kind of machine.  What limits this is the length of a `GByteArray`, which is a `guint`: a larger
element is cut, and a larger batch ends the process.
-/

namespace EventRecorder

open Theory

/-! ## 1. Variants in normal form -/

/-- What GLib documents of its functions, for variants in normal form. -/
structure VariantLibrary.Lawful (glib : VariantLibrary) : Prop where
  getNormalForm_eq : ∀ variant, glib.isNormalForm variant = true →
    glib.getNormalForm variant = variant
  byteswap_byteswap : ∀ variant, glib.isNormalForm variant = true →
    glib.byteswap (glib.byteswap variant) = variant
  swapKeepsSize : glib.SwapKeepsSize
  isNormalForm_byteswap : ∀ variant, glib.isNormalForm variant = true →
    glib.isNormalForm (glib.byteswap variant) = true

/-- A variant in normal form whose type string is valid and has no null byte. -/
structure GVariant.Storable (glib : VariantLibrary) (variant : GVariant) : Prop where
  isNormalForm : glib.isNormalForm variant = true
  typeStringIsValid : glib.typeStringIsValid variant.typeString = true
  nullFree : 0 ∉ variant.typeString

variable {glib : VariantLibrary} {variant : GVariant}

theorem GVariant.Storable.byteswap (laws : glib.Lawful)
    (h : variant.Storable glib) : (glib.byteswap variant).Storable glib := by
  have htype := (laws.swapKeepsSize variant h.isNormalForm).1
  refine ⟨laws.isNormalForm_byteswap variant h.isNormalForm, ?_, ?_⟩
  · rw [htype]
    exact h.typeStringIsValid
  · rw [htype]
    exact h.nullFree

namespace EmerPersistentCache

variable {order : ByteOrder}

/-- The type string of an element ends at its first null byte. -/
theorem readVariant_variantElem (h : variant.Storable glib) :
    readVariant glib order (variantElem variant) =
      regularizePostStorage glib order variant := by
  have htype : (variantElem variant).takeWhile (· ≠ 0) = variant.typeString := by
    rw [variantElem, List.takeWhile_append_of_pos]
    · rw [List.takeWhile_cons_of_neg (by simp), List.append_nil]
    · intro byte hbyte
      rw [decide_eq_true_eq]
      rintro rfl
      exact h.nullFree hbyte
  have hdata : (variantElem variant).drop (variant.typeString.length + 1) = variant.data := by
    rw [variantElem, ← List.drop_drop, List.drop_left, List.drop_one, List.tail_cons]
  have hlength : variant.typeString.length ≠ (variantElem variant).length := by
    rw [length_variantElem, emerPersistentCacheCost]
    omega
  unfold readVariant
  simp only
  rw [htype, if_neg hlength, h.typeStringIsValid, hdata, if_neg (by simp)]

/-- What is stored of a variant is read back as the variant. -/
theorem readVariant_storedElem (laws : glib.Lawful) (h : variant.Storable glib) :
    readVariant glib order (storedElem glib order variant) = .ok variant := by
  unfold storedElem regularizePreStorage
  cases order with
  | little =>
    simp only
    rw [laws.getNormalForm_eq variant h.isNormalForm, readVariant_variantElem h,
      regularizePostStorage, h.isNormalForm]
    rfl
  | big =>
    simp only
    have hswapped := h.byteswap laws
    rw [readVariant_variantElem hswapped, regularizePostStorage, hswapped.isNormalForm]
    show Except.ok (glib.byteswap (glib.byteswap variant)) = _
    rw [laws.byteswap_byteswap variant h.isNormalForm]

theorem length_storedElem (laws : glib.Lawful) (h : variant.Storable glib) :
    (storedElem glib order variant).length = emerPersistentCacheCost variant :=
  length_of_readVariant laws.swapKeepsSize (readVariant_storedElem laws h)

theorem mapM_storedElem (laws : glib.Lawful) {variants : List GVariant}
    (h : ∀ variant ∈ variants, variant.Storable glib) :
    (variants.map (storedElem glib order)).mapM (readVariant glib order) = .ok variants := by
  induction variants with
  | nil => rfl
  | cons variant variants ih =>
    rw [List.map_cons, List.mapM_cons, readVariant_storedElem laws (h variant List.mem_cons_self),
      ih fun other hother => h other (List.mem_cons_of_mem _ hother)]
    rfl

/-- The longest prefix of the contents that the budget covers, read from an intact cache. -/
theorem read_takeWithin {self : EmerPersistentCache} {bytes : Bytes} {q : Fifo Bytes}
    {variants : List GVariant} (hswap : glib.SwapKeepsSize)
    (hholds : Holds self.variantFile bytes q)
    (hvariants : q.saved.mapM (readVariant glib order) = .ok variants) (cost : Nat)
    (saved : Bool) :
    self.read glib order cost saved =
      (.ok (takeWithin emerPersistentCacheCost cost variants,
        tokenOf q (takeWithin emerPersistentCacheCost cost variants).length), false, self) := by
  obtain ⟨hmap, htake⟩ := takeWithin_mapM (fun _ _ h => length_of_readVariant hswap h) hvariants
    cost
  rw [EmerPersistentCache.read, hholds.read_eq, Fifo.read]
  dsimp only
  rw [hmap, tokenOf, ← htake]
  rfl

end EmerPersistentCache

/-! ## 2. The length of a byte array -/

/-- `g_byte_array_append` ends the process where the length would not be a `guint`. -/
def gByteArrayOverflows (array data : Bytes) : Bool :=
  2 ^ 32 ≤ array.length + data.length % 2 ^ 32

namespace EmerCircularFile

/-- Whether appending an element ends the process. -/
def appendOverflows (self : EmerCircularFile) (elem : Bytes) : Bool :=
  (self.append elem).1 &&
    (gByteArrayOverflows self.writeBuffer (toLittleEndian 8 elem.length) ||
      gByteArrayOverflows (gByteArrayAppend self.writeBuffer (toLittleEndian 8 elem.length)) elem)

theorem append_cases (self : EmerCircularFile) (elem : Bytes) :
    self.append elem = (false, self) ∨
      self.append elem = (true, { self with
        writeBuffer :=
          gByteArrayAppend (gByteArrayAppend self.writeBuffer (toLittleEndian 8 elem.length))
            elem }) := by
  rw [append]
  split
  · exact .inl rfl
  · exact .inr rfl

/-- Whether an element is accepted, also one that is cut. -/
theorem append_accepts (self : EmerCircularFile) {elem : Bytes}
    (hsum : self.size + self.writeBuffer.length + (8 + elem.length) < 2 ^ 64) :
    (self.append elem).1 = true ↔
      self.size + self.writeBuffer.length + (8 + elem.length) ≤ self.maxSize := by
  rw [append, sizeofElemSize, Nat.mod_eq_of_lt (show 8 + elem.length < 2 ^ 64 by omega),
    Nat.mod_eq_of_lt hsum]
  by_cases hfits : self.size + self.writeBuffer.length + (8 + elem.length) ≤ self.maxSize
  · rw [if_neg (by omega)]
    exact iff_of_true rfl hfits
  · rw [if_pos (by omega)]
    exact iff_of_false Bool.false_ne_true hfits

/-- An append that does not end the process leaves a buffer whose length is a `guint`. -/
theorem length_writeBuffer_append {self : EmerCircularFile} {elem : Bytes}
    (hbuffer : self.writeBuffer.length < 2 ^ 32) (hoverflow : self.appendOverflows elem = false) :
    (self.append elem).2.writeBuffer.length < 2 ^ 32 := by
  rw [appendOverflows] at hoverflow
  cases self.append_cases elem with
  | inl hrefused => rwa [hrefused]
  | inr haccepted =>
    rw [haccepted, Bool.true_and, Bool.or_eq_false_iff] at hoverflow
    have hlast := hoverflow.2
    rw [gByteArrayOverflows, decide_eq_false_iff_not, Nat.not_le] at hlast
    have hmod := Nat.mod_le elem.length (2 ^ 32)
    rw [haccepted]
    show (gByteArrayAppend (gByteArrayAppend self.writeBuffer _) elem).length < 2 ^ 32
    generalize gByteArrayAppend self.writeBuffer (toLittleEndian 8 elem.length) = framed at *
    rw [gByteArrayAppend, List.length_append, List.length_take]
    omega

end EmerCircularFile

namespace EmerPersistentCache

variable (glib : VariantLibrary) (order : ByteOrder)

/-- Whether one of the appends of a store ends the process. -/
def storeOverflows (variantFile : EmerCircularFile) : List GVariant → Bool
  | [] => false
  | variant :: variants =>
    variantFile.appendOverflows (storedElem glib order variant) ||
      (variantFile.append (storedElem glib order variant)).1 &&
        storeOverflows (variantFile.append (storedElem glib order variant)).2 variants

/-- `emer_persistent_cache_store` for batches of any size. -/
def storeChecked (self : EmerPersistentCache) (variants : List GVariant) (fault : SaveFault) :
    Except GError Nat × EmerPersistentCache :=
  if storeOverflows glib order self.variantFile variants then (.error .aborts, self)
  else self.store glib order variants fault

variable {glib order}

/-- A store that does not end the process saves a buffer whose length is a `guint`. -/
theorem length_writeBuffer_appendVariants {variantFile : EmerCircularFile}
    {variants : List GVariant} (hbuffer : variantFile.writeBuffer.length < 2 ^ 32)
    (hoverflow : storeOverflows glib order variantFile variants = false) :
    (appendVariants glib order variantFile variants).2.writeBuffer.length < 2 ^ 32 := by
  induction variants generalizing variantFile with
  | nil => exact hbuffer
  | cons variant variants ih =>
    rw [storeOverflows, Bool.or_eq_false_iff] at hoverflow
    obtain ⟨hfirst, hrest⟩ := hoverflow
    have hlength := EmerCircularFile.length_writeBuffer_append hbuffer hfirst
    rw [appendVariants]
    generalize variantFile.append (storedElem glib order variant) = answer at hrest hlength ⊢
    obtain ⟨accepted, file⟩ := answer
    cases accepted with
    | false => exact hlength
    | true => exact ih hlength hrest

/-! ## 3. Storing and reading -/

/-- The bytes on disk of a variant. -/
def storedCost (variant : GVariant) : Nat :=
  8 + emerPersistentCacheCost variant

theorem frameLength_storedElem (laws : glib.Lawful) {variants : List GVariant}
    (h : ∀ variant ∈ variants, variant.Storable glib) (budget : Nat) :
    takeWithin frameLength budget (variants.map (storedElem glib order)) =
      (takeWithin storedCost budget variants).map (storedElem glib order) := by
  rw [takeWithin_map]
  have hcost : ∀ variant ∈ variants,
      (frameLength ∘ storedElem glib order) variant = storedCost variant := by
    intro variant hvariant
    rw [Function.comp_apply, frameLength, length_storedElem laws (h variant hvariant), storedCost]
  rw [← takeWithin_congr hcost]
  rfl

/-- The variants that the cache has room for fit into a byte array. -/
def FitsByteArray (maxSize : Nat) (variants : List GVariant) : Prop :=
  ((takeWithin storedCost maxSize variants).map storedCost).sum < 2 ^ 32

instance (maxSize : Nat) (variants : List GVariant) : Decidable (FitsByteArray maxSize variants) :=
  inferInstanceAs (Decidable (_ < _))

/-- No sum of a store overflows where what is accepted fits. -/
theorem sumsFit_of_fitsByteArray (laws : glib.Lawful) {variants : List GVariant}
    (hstorable : ∀ variant ∈ variants, variant.Storable glib)
    (hsize : ∀ variant ∈ variants, storedCost variant ≤ 2 ^ 63)
    {variantFile : EmerCircularFile} (hmaxSize : variantFile.maxSize < 2 ^ 63)
    (hroom : variantFile.size + variantFile.writeBuffer.length ≤ variantFile.maxSize)
    (hfits : variantFile.writeBuffer.length + ((takeWithin storedCost (variantFile.maxSize -
      (variantFile.size + variantFile.writeBuffer.length)) variants).map storedCost).sum <
        2 ^ 32) :
    SumsFit glib order variantFile variants ∧
      storeOverflows glib order variantFile variants = false := by
  induction variants generalizing variantFile with
  | nil => exact ⟨trivial, rfl⟩
  | cons variant variants ih =>
    have hlength : (storedElem glib order variant).length = emerPersistentCacheCost variant :=
      length_storedElem laws (hstorable variant List.mem_cons_self)
    have hcost := hsize variant List.mem_cons_self
    rw [storedCost] at hcost
    have haccepts := @EmerCircularFile.append_accepts variantFile
      (storedElem glib order variant) (by omega)
    rw [takeWithin] at hfits
    rw [SumsFit, storeOverflows, EmerCircularFile.appendOverflows]
    generalize hstored : storedElem glib order variant = elem at *
    by_cases haccepted : variantFile.size + variantFile.writeBuffer.length + (8 + elem.length) ≤
        variantFile.maxSize
    -- an accepted variant is appended in full, and the rest of the batch goes behind it
    · rw [if_pos (by rw [storedCost]; omega), List.map_cons, List.sum_cons] at hfits
      have hvariantCost : storedCost variant = 8 + elem.length := by rw [storedCost, hlength]
      have hframed : gByteArrayAppend variantFile.writeBuffer (toLittleEndian 8 elem.length) =
          variantFile.writeBuffer ++ toLittleEndian 8 elem.length :=
        gByteArrayAppend_eq _ (by rw [length_toLittleEndian]; decide)
      have happended : variantFile.append elem = (true, { variantFile with
          writeBuffer := variantFile.writeBuffer ++ frame elem }) := by
        rw [EmerCircularFile.append_of_sumFits (by omega) (fun _ => by omega), if_pos haccepted]
      have hnoOverflow : gByteArrayOverflows variantFile.writeBuffer
            (toLittleEndian 8 elem.length) = false ∧
          gByteArrayOverflows (variantFile.writeBuffer ++ toLittleEndian 8 elem.length) elem =
            false := by
        unfold gByteArrayOverflows
        rw [decide_eq_false_iff_not, decide_eq_false_iff_not, List.length_append,
          length_toLittleEndian]
        omega
      have hbuffer : (variantFile.writeBuffer ++ frame elem).length =
          variantFile.writeBuffer.length + storedCost variant := by
        rw [List.length_append, length_frame, frameLength, hvariantCost]
      have hrest := @ih (fun other hother => hstorable other (List.mem_cons_of_mem _ hother))
        (fun other hother => hsize other (List.mem_cons_of_mem _ hother))
        (variantFile.append elem).2 (by rw [happended]; exact hmaxSize)
        (by
          rw [happended]
          dsimp only
          omega)
        (by
          rw [happended]
          dsimp only
          rw [hbuffer, ← Nat.add_assoc, ← Nat.sub_sub, Nat.add_assoc]
          exact hfits)
      obtain ⟨hsums, hoverflow⟩ := hrest
      refine ⟨⟨by omega, fun _ => by omega, fun _ => hsums⟩, ?_⟩
      rw [hoverflow, Bool.and_false, Bool.or_false, hframed, hnoOverflow.1, hnoOverflow.2,
        Bool.or_false, Bool.and_false]
    · have hrefused : (variantFile.append elem).1 = false :=
        Bool.eq_false_iff.mpr fun htrue => haccepted (haccepts.mp htrue)
      rw [hrefused]
      exact ⟨⟨by omega, fun hle => absurd hle haccepted, fun h => by cases h⟩, rfl⟩

/-- Storing keeps the longest prefix that there is room for, and reading finds the longest prefix of
that which the budget covers. -/
def SurvivesStorage (glib : VariantLibrary) (order : ByteOrder) (self : EmerPersistentCache)
    (variants : List GVariant) : Prop :=
  ∃ kept, IsLongestPrefix storedCost self.variantFile.maxSize kept variants ∧
    ((variants.map storedCost).sum ≤ self.variantFile.maxSize → kept = variants) ∧
    (self.storeChecked glib order variants .none).1 = .ok kept.length ∧
    ∀ cost, cost < 2 ^ 64 → ∀ saved, ∃ found token,
      IsLongestPrefix emerPersistentCacheCost cost found kept ∧
      ((kept.map emerPersistentCacheCost).sum ≤ cost → found = kept) ∧
      ((self.storeChecked glib order variants .none).2.read glib order cost saved).1 =
        .ok (found, token)

theorem survivesStorage_of_fitsByteArray (laws : glib.Lawful) {self : EmerPersistentCache}
    {bytes : Bytes} (h : Holds self.variantFile bytes Fifo.empty)
    (hmaxSize : self.variantFile.maxSize < 2 ^ 63) {variants : List GVariant}
    (hstorable : ∀ variant ∈ variants, variant.Storable glib)
    (hsize : ∀ variant ∈ variants, storedCost variant ≤ 2 ^ 63)
    (hfits : FitsByteArray self.variantFile.maxSize variants) :
    SurvivesStorage glib order self variants := by
  have hkept := takeWithin_isLongestPrefix storedCost self.variantFile.maxSize variants
  have hnoSize : self.variantFile.size = 0 := h.size_eq
  have hnoBuffer : self.variantFile.writeBuffer.length = 0 := by
    rw [h.writeBuffer_eq]
    rfl
  have hhead := h.head_lt
  obtain ⟨hsums, hoverflow⟩ := @sumsFit_of_fitsByteArray glib order laws variants hstorable hsize
    self.variantFile hmaxSize (by omega) (by
      rw [hnoSize, hnoBuffer, Nat.add_zero, Nat.sub_zero, Nat.zero_add]
      exact hfits)
  have hchecked : self.storeChecked glib order variants .none =
      self.store glib order variants .none := by
    rw [storeChecked, hoverflow, if_neg Bool.false_ne_true]
  obtain ⟨hanswer, bytes', hstored⟩ := store_spec h hsums (by omega) .none
  have hsucceeds : storeFails glib order self.variantFile variants .none = false := by
    simp [storeFails, EmerCircularFile.SaveFails]
  have hcount : (Fifo.empty.appendAll frameLength self.variantFile.maxSize
      (variants.map (storedElem glib order))).1 =
      (takeWithin storedCost self.variantFile.maxSize variants).length := by
    rw [Fifo.appendAll_fst frameLength _ _ _ (Nat.zero_le _)]
    show (takeWithin frameLength self.variantFile.maxSize _).length = _
    rw [frameLength_storedElem laws hstorable, List.length_map]
  rw [hsucceeds] at hanswer hstored
  generalize takeWithin storedCost self.variantFile.maxSize variants = kept at hkept hcount
  have hreply : (Fifo.empty.store frameLength self.variantFile.maxSize
      (variants.map (storedElem glib order)) false).1 = some kept.length := by
    rw [Fifo.store, if_neg (by simp), hcount]
  have htaken : (variants.map (storedElem glib order)).take kept.length =
      kept.map (storedElem glib order) := by
    rw [← List.map_take, ← List.prefix_iff_eq_take.mp hkept.isPrefix]
  rw [Fifo.store_succeeds frameLength self.variantFile.maxSize hreply] at hstored
  rw [hreply] at hanswer
  rw [htaken] at hstored
  have hdecoded : ([] ++ ([] ++ kept.map (storedElem glib order))).mapM
      (readVariant glib order) = .ok kept :=
    mapM_storedElem laws fun variant hvariant => hstorable variant (hkept.isPrefix.subset hvariant)
  rw [SurvivesStorage, hchecked]
  refine ⟨kept, hkept, hkept.eq_of_sum_le, ?_, ?_⟩
  · generalize (self.store glib order variants .none).1 = answer at hanswer
    cases answer with
    | error e => cases hanswer
    | ok n => exact congrArg Except.ok (Option.some.inj hanswer)
  · intro cost hcost saved
    have hfound := takeWithin_isLongestPrefix emerPersistentCacheCost cost kept
    have hread := read_takeWithin laws.swapKeepsSize hstored hdecoded cost saved
    exact ⟨_, _, hfound, hfound.eq_of_sum_le, congrArg Prod.fst hread⟩

/-- What is saved in a fresh file is the write buffer. -/
theorem EmerCircularFile.save_fresh {file : EmerCircularFile} (hdata : file.disk.dataFile = some [])
    (hhead : file.head = 0) (hsize : file.size = 0)
    (hfits : file.writeBuffer.length ≤ file.maxSize) (hmaxSize : file.maxSize < 2 ^ 64) :
    (file.save .none).2.disk.dataFile = some file.writeBuffer ∧ (file.save .none).2.head = 0 ∧
      (file.save .none).2.maxSize = file.maxSize := by
  have htail : file.tail = 0 := by
    rw [EmerCircularFile.tail, hhead, hsize]
    exact Nat.zero_mod _
  have hbytesTail : file.bytesTail = file.writeBuffer.length := by
    rw [EmerCircularFile.bytesTail, htail]
    omega
  have hwritten : ∀ contents', file.writeData [] .none = (true, contents') →
      contents' = file.writeBuffer := by
    intro contents' heq
    unfold EmerCircularFile.writeData EmerCircularFile.writeAtStart at heq
    rw [hbytesTail, Nat.sub_self, if_neg (Nat.lt_irrefl 0)] at heq
    unfold EmerCircularFile.writeAtTail at heq
    dsimp only at heq
    rw [hbytesTail, htail, List.take_length] at heq
    have hdone := (Prod.mk.inj heq).2
    rw [← hdone, writeAt_zero]
    simp
  have houtcome := file.save_outcome (by omega) .none
  generalize file.save .none = result at houtcome ⊢
  cases houtcome with
  | nothingToSave hempty =>
    rw [List.length_eq_zero_iff.mp hempty]
    exact ⟨hdata, hhead, rfl⟩
  | notOpened hne hopen => simp [hdata] at hopen
  | @notWritten contents contents' hne hdata' hfailed =>
    have hdone := (file.writeData_eq_true_iff contents .none).mpr trivial
    rw [hfailed] at hdone
    cases hdone
  | sizeNotSaved hne hdata' hdone hfault => cases hfault
  | @saved contents contents' hne hdata' hopen hdone hfault keyFile hkeyFile =>
    obtain rfl : [] = contents := Option.some.inj (hdata.symm.trans hdata')
    rw [hwritten contents' hdone]
    exact ⟨rfl, hhead, rfl⟩

theorem sum_storedCost_of_mapM (hswap : glib.SwapKeepsSize) {elems : List Bytes}
    {variants : List GVariant} (h : elems.mapM (readVariant glib order) = .ok variants) :
    (encode elems).length = (variants.map storedCost).sum := by
  induction elems generalizing variants with
  | nil =>
    cases h
    rfl
  | cons elem elems ih =>
    rw [List.mapM_cons] at h
    cases helem : readVariant glib order elem with
    | error e =>
      rw [helem] at h
      cases h
    | ok variant =>
      rw [helem] at h
      cases helems : elems.mapM (readVariant glib order) with
      | error e =>
        rw [helems] at h
        cases h
      | ok rest =>
        rw [helems] at h
        cases h
        rw [length_encode_cons, List.map_cons, List.sum_cons, ih helems, storedCost,
          length_of_readVariant hswap helem]

/-- In a fresh file, more than a byte array can hold does not survive. -/
theorem fitsByteArray_of_survivesStorage (hswap : glib.SwapKeepsSize) {self : EmerPersistentCache}
    (h : Holds self.variantFile [] Fifo.empty) (hfresh : self.variantFile.head = 0)
    (hmaxSize : self.variantFile.maxSize < 2 ^ 63) {variants : List GVariant}
    (hsurvives : SurvivesStorage glib order self variants) :
    FitsByteArray self.variantFile.maxSize variants := by
  obtain ⟨kept, hkept, -, hstore, hreads⟩ := hsurvives
  have hroom := hkept.sum_le
  rw [FitsByteArray, ← hkept.eq_takeWithin]
  by_contra hlarge
  have hnoSize : self.variantFile.size = 0 := h.size_eq
  have hnoBuffer : self.variantFile.writeBuffer.length = 0 := by
    rw [h.writeBuffer_eq]
    rfl
  have hcosts : (kept.map emerPersistentCacheCost).sum ≤ (kept.map storedCost).sum :=
    List.sum_le_sum fun variant _ => Nat.le_add_left _ _
  -- the read with the budget of what was kept
  obtain ⟨found, token, -, hall, hread⟩ :=
    hreads (kept.map emerPersistentCacheCost).sum (by omega) true
  obtain rfl := hall (le_refl _)
  rw [storeChecked] at hstore hread
  by_cases hoverflow : storeOverflows glib order self.variantFile variants = true
  · rw [if_pos hoverflow] at hstore
    cases hstore
  rw [if_neg hoverflow] at hread
  obtain ⟨hsame, hhead, hsize⟩ := appendVariants_maxSize glib order self.variantFile variants
  have hbuffer := @length_writeBuffer_appendVariants glib order self.variantFile variants
    (by omega) (Bool.eq_false_iff.mpr hoverflow)
  have hdisk : (appendVariants glib order self.variantFile variants).2.disk.dataFile =
      some [] := by
    rw [appendVariants_disk]
    exact h.dataFile
  generalize hfile : (appendVariants glib order self.variantFile variants).2 = file at *
  obtain ⟨hdata, hstart, hlimit⟩ := EmerCircularFile.save_fresh hdisk (hhead.trans hfresh)
    (hsize.trans hnoSize) (by omega) (by omega)
  have hafter : (self.store glib order variants .none).2.variantFile = (file.save .none).2 := by
    rw [store, hfile]
    generalize file.save .none = answer
    obtain ⟨e | done, saved⟩ := answer
    · rfl
    · rfl
  -- what the read returns lies in the data file, which is as long as the buffer was
  rw [EmerPersistentCache.read, hafter] at hread
  cases hanswer : (file.save .none).2.read (found.map emerPersistentCacheCost).sum true with
  | mk answer rest =>
    obtain ⟨hasInvalid, next⟩ := rest
    rw [hanswer] at hread
    cases answer with
    | error e => cases hread
    | ok result =>
      obtain ⟨final, hhas⟩ := EmerCircularFile.read_hasElems hdata hanswer
      have hend := hhas.end_le (by dsimp only; omega) (by dsimp only; omega)
      dsimp only at hread hend
      cases hdecoded : result.elems.mapM (readVariant glib order) with
      | error e =>
        rw [hdecoded] at hread
        cases hread
      | ok decoded =>
        rw [hdecoded] at hread
        have heq : decoded = found := (Prod.mk.inj (Except.ok.inj hread)).1
        have hlength := sum_storedCost_of_mapM hswap hdecoded
        rw [heq] at hlength
        omega

/-! ## 4. What survives -/

/-- **Which variants survive storage**, on machines of either byte order.  The condition is exact
for a fresh file; in another one, the rest of an element that was cut may happen to lie behind
it. -/
theorem survivesStorage_iff (glib : VariantLibrary) (order : ByteOrder) (laws : glib.Lawful)
    {self : EmerPersistentCache} {bytes : Bytes} (h : Holds self.variantFile bytes Fifo.empty)
    (hmaxSize : self.variantFile.maxSize < 2 ^ 63) {variants : List GVariant}
    (hstorable : ∀ variant ∈ variants, variant.Storable glib)
    (hsize : ∀ variant ∈ variants, storedCost variant ≤ 2 ^ 63) :
    (FitsByteArray self.variantFile.maxSize variants → SurvivesStorage glib order self variants) ∧
      (bytes = [] → self.variantFile.head = 0 →
        (SurvivesStorage glib order self variants ↔
          FitsByteArray self.variantFile.maxSize variants)) := by
  have henough : FitsByteArray self.variantFile.maxSize variants →
      SurvivesStorage glib order self variants :=
    survivesStorage_of_fitsByteArray laws h hmaxSize hstorable hsize
  refine ⟨henough, fun hempty hhead => ⟨fun hsurvives => ?_, henough⟩⟩
  rw [hempty] at h
  exact fitsByteArray_of_survivesStorage laws.swapKeepsSize h hhead hmaxSize hsurvives

/-- Variants that are single numbers. -/
def numberVariants : VariantLibrary :=
  ⟨id, fun variant => ⟨variant.typeString, variant.data.reverse⟩, fun _ => true, fun _ => true⟩

theorem numberVariants_lawful : numberVariants.Lawful where
  getNormalForm_eq := fun _ _ => rfl
  byteswap_byteswap := fun variant _ => by
    show GVariant.mk variant.typeString variant.data.reverse.reverse = variant
    rw [List.reverse_reverse]
  swapKeepsSize := fun _ _ => ⟨rfl, List.length_reverse⟩
  isNormalForm_byteswap := fun _ _ => rfl

/-- Three numbers of 43 bytes in all.  Twice as many do not fit into 64 bytes. -/
def sampleNumbers : List GVariant :=
  [⟨[121], [7]⟩, ⟨[116], [1, 2, 3, 4, 5, 6, 7, 8]⟩, ⟨[117], [1, 2, 3, 4]⟩]

theorem survivesStorage_iff_sampleNumbers :
    (FitsByteArray 64 (sampleNumbers ++ sampleNumbers) →
        SurvivesStorage numberVariants .big smallCache (sampleNumbers ++ sampleNumbers)) ∧
      (([] : Bytes) = [] → smallCache.variantFile.head = 0 →
        (SurvivesStorage numberVariants .big smallCache (sampleNumbers ++ sampleNumbers) ↔
          FitsByteArray 64 (sampleNumbers ++ sampleNumbers))) :=
  survivesStorage_iff numberVariants .big numberVariants_lawful
    (holds_empty (by decide) (by decide) (by decide)) (by decide)
    (fun variant hvariant => ⟨rfl, rfl, by revert variant; decide⟩) (by decide)

/-- A cache of 8 GiB over an empty data file. -/
def largeCache : EmerPersistentCache :=
  ⟨⟨⟨some [], .absent⟩, KeyFile.empty, [], 2 ^ 33, 0, 0⟩⟩

/-- Arrays of bytes: any bytes are one in normal form, and a byte swap leaves them as they are. -/
def byteArrays : VariantLibrary :=
  ⟨id, id, fun variant => variant.typeString = [97, 121], fun typeString => typeString = [97, 121]⟩

/-- An array of a given number of zeros, of type `ay`. -/
def zeros (n : Nat) : GVariant := ⟨[97, 121], List.replicate n 0⟩

theorem storedCost_zeros (n : Nat) : storedCost (zeros n) = n + 11 := by
  show 8 + (2 + 1 + (List.replicate n (0 : UInt8)).length) = n + 11
  rw [List.length_replicate]
  omega

theorem zeros_storable (n : Nat) : (zeros n).Storable byteArrays where
  isNormalForm := rfl
  typeStringIsValid := rfl
  nullFree := by
    show 0 ∉ ([97, 121] : Bytes)
    decide

/-- The element of an array of 4 GiB is cut, although the cache has room for it. -/
theorem longVariant_does_not_survive :
    Holds largeCache.variantFile [] Fifo.empty ∧ (zeros (2 ^ 32)).Storable byteArrays ∧
      storedCost (zeros (2 ^ 32)) ≤ largeCache.variantFile.maxSize ∧
      ¬ SurvivesStorage byteArrays .little largeCache [zeros (2 ^ 32)] := by
  have hholds : Holds largeCache.variantFile [] Fifo.empty :=
    holds_empty (by decide) (by decide) (by decide)
  have hmaxSize : largeCache.variantFile.maxSize = 2 ^ 33 := rfl
  have hcost := storedCost_zeros (2 ^ 32)
  have hstorable := zeros_storable (2 ^ 32)
  generalize zeros (2 ^ 32) = variant at hcost hstorable ⊢
  refine ⟨hholds, hstorable, by omega, fun hsurvives => ?_⟩
  have hfits := fitsByteArray_of_survivesStorage (fun _ _ => ⟨rfl, rfl⟩) hholds rfl (by omega)
    hsurvives
  rw [FitsByteArray, hmaxSize, takeWithin, if_pos (by omega), takeWithin, List.map_singleton,
    List.sum_singleton] at hfits
  omega

end EmerPersistentCache

end EventRecorder
