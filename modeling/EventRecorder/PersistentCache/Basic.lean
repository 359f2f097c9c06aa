import EventRecorder.CircularFile.Metadata

/-!
# The persistent cache

Variants are put into normal form in little-endian byte order and stored as elements of a circular
file: the type string, a null byte and the serialised data.  Whether the file operations of a call
succeed is a parameter, as for the circular file.
-/

namespace EventRecorder

open Theory

structure GVariant where
  typeString : Bytes
  data : Bytes
  deriving DecidableEq, Repr

inductive ByteOrder where
  | little
  | big
  deriving DecidableEq, Repr

/-- The functions of GLib on variants that storage relies on. -/
structure VariantLibrary where
  getNormalForm : GVariant → GVariant
  byteswap : GVariant → GVariant
  isNormalForm : GVariant → Bool
  typeStringIsValid : Bytes → Bool

/-- Swapping the bytes of a variant in normal form keeps its type and its size. -/
def VariantLibrary.SwapKeepsSize (glib : VariantLibrary) : Prop :=
  ∀ variant, glib.isNormalForm variant = true →
    (glib.byteswap variant).typeString = variant.typeString ∧
      (glib.byteswap variant).data.length = variant.data.length

/-- The variant as it is written.  Swapping the bytes puts it into normal form as well. -/
def regularizePreStorage (glib : VariantLibrary) (order : ByteOrder) (variant : GVariant) :
    GVariant :=
  match order with
  | .little => glib.getNormalForm variant
  | .big => glib.byteswap variant

/-- A variant that was stored in normal form but is read in another ends the process. -/
def regularizePostStorage (glib : VariantLibrary) (order : ByteOrder) (variant : GVariant) :
    Except GError GVariant :=
  -- `g_error` where the variant is not in normal form
  if !glib.isNormalForm variant then .error .aborts
  else
    match order with
    | .little => .ok variant
    | .big => .ok (glib.byteswap variant)

def emerPersistentCacheCost (variant : GVariant) : Nat :=
  variant.typeString.length + 1 + variant.data.length

/-- The bytes of a variant in the circular file. -/
def variantElem (variant : GVariant) : Bytes :=
  variant.typeString ++ 0 :: variant.data

theorem length_variantElem (variant : GVariant) :
    (variantElem variant).length = emerPersistentCacheCost variant := by
  rw [variantElem, List.length_append, List.length_cons, emerPersistentCacheCost]
  omega

theorem variantElem_ne_nil (variant : GVariant) : variantElem variant ≠ [] := by
  simp [variantElem]

structure EmerPersistentCache where
  variantFile : EmerCircularFile

namespace EmerPersistentCache

variable (glib : VariantLibrary) (order : ByteOrder)

/-- The element that a variant is stored as. -/
def storedElem (variant : GVariant) : Bytes :=
  variantElem (regularizePreStorage glib order variant)

/-- Appends the variants up to the first one that does not fit. -/
def appendVariants (variantFile : EmerCircularFile) : List GVariant → Nat × EmerCircularFile
  | [] => (0, variantFile)
  | variant :: variants =>
    match variantFile.append (storedElem glib order variant) with
    -- a variant that does not fit ends the loop, and those behind it are not tried
    | (false, variantFile) => (0, variantFile)
    | (true, variantFile) =>
      let rest := appendVariants variantFile variants
      (rest.1 + 1, rest.2)

/-- `emer_persistent_cache_store`, with the number of variants stored.  The stack, on which each
element is built, is not modelled. -/
def store (self : EmerPersistentCache) (variants : List GVariant) (fault : SaveFault) :
    Except GError Nat × EmerPersistentCache :=
  let appended := appendVariants glib order self.variantFile variants
  match appended.2.save fault with
  -- what was appended stays in the write buffer of the circular file
  | (.error e, variantFile) => (.error e, ⟨variantFile⟩)
  | (.ok (), variantFile) => (.ok appended.1, ⟨variantFile⟩)

def corruptData : GError := .invalidData "Corrupt data found in the persistent cache."

/-- An element is corrupt that has no null byte, as an empty one, or no valid type string. -/
def readVariant (elem : Bytes) : Except GError GVariant :=
  let typeString := elem.takeWhile (· ≠ 0)
  if typeString.length = elem.length then .error corruptData
  else if !glib.typeStringIsValid typeString then .error corruptData
  else regularizePostStorage glib order ⟨typeString, elem.drop (typeString.length + 1)⟩

/-- The error of the loop as the caller gets it.  `g_error` has ended the process by then, and
`g_set_error` warns where an error is set already, and keeps that one. -/
def reportedError (errorLeft : Option GError) : GError → GError
  | .aborts => .aborts
  | error => errorLeft.getD error

@[simp] theorem reportedError_none (error : GError) : reportedError none error = error := by
  cases error with
  | _ => rfl

/-- `emer_persistent_cache_read`: the variants and their token, and `has_invalid`. -/
def read (self : EmerPersistentCache) (cost : Nat) (saved : Bool) :
    Except GError (List GVariant × Nat) × Bool × EmerPersistentCache :=
  match self.variantFile.read cost saved with
  | (.error e, hasInvalid, variantFile) => (.error e, hasInvalid, ⟨variantFile⟩)
  | (.ok result, hasInvalid, variantFile) =>
    -- one corrupt element fails the whole read
    (((result.elems.mapM (readVariant glib order)).mapError
      (reportedError (variantFile.errorLeft hasInvalid saved))).map
        fun variants => (variants, result.token), hasInvalid, ⟨variantFile⟩)

/-- A variant that is read costs what its element takes up. -/
theorem length_of_readVariant {glib : VariantLibrary} {order : ByteOrder}
    (hswap : glib.SwapKeepsSize) {elem : Bytes} {variant : GVariant}
    (h : readVariant glib order elem = .ok variant) :
    elem.length = emerPersistentCacheCost variant := by
  have hle : (elem.takeWhile (· ≠ 0)).length ≤ elem.length :=
    (List.takeWhile_prefix _).length_le
  unfold readVariant at h
  simp only at h
  by_cases hnull : (elem.takeWhile (· ≠ 0)).length = elem.length
  · rw [if_pos hnull] at h
    cases h
  rw [if_neg hnull] at h
  by_cases hvalid : (!glib.typeStringIsValid (elem.takeWhile (· ≠ 0))) = true
  · rw [if_pos hvalid] at h
    cases h
  rw [if_neg hvalid] at h
  unfold regularizePostStorage at h
  -- the type string, its null byte and the rest
  have hcost : elem.length = emerPersistentCacheCost ⟨elem.takeWhile (· ≠ 0),
      elem.drop ((elem.takeWhile (· ≠ 0)).length + 1)⟩ := by
    show elem.length = (elem.takeWhile (· ≠ 0)).length + 1 +
      (elem.drop ((elem.takeWhile (· ≠ 0)).length + 1)).length
    rw [List.length_drop]
    omega
  generalize GVariant.mk (elem.takeWhile (· ≠ 0))
    (elem.drop ((elem.takeWhile (· ≠ 0)).length + 1)) = stored at h hcost
  by_cases hnormal : (!glib.isNormalForm stored) = true
  · rw [if_pos hnormal] at h
    cases h
  rw [if_neg hnormal] at h
  rw [hcost]
  cases order with
  | little => rw [Except.ok.inj h]
  | big =>
    obtain ⟨htype, hdata⟩ := hswap stored (by simpa using hnormal)
    rw [← Except.ok.inj h, emerPersistentCacheCost, emerPersistentCacheCost, htype, hdata]

def hasMore (self : EmerPersistentCache) (token : Nat) : Bool :=
  self.variantFile.hasMore token

def remove (self : EmerPersistentCache) (token : Nat) (saved : Bool) :
    Except GError Unit × EmerPersistentCache :=
  let removed := self.variantFile.remove token saved
  (removed.1, ⟨removed.2⟩)

def removeAll (self : EmerPersistentCache) (saved : Bool) :
    Except GError Unit × EmerPersistentCache :=
  let removed := self.variantFile.purge saved
  (removed.1, ⟨removed.2⟩)

theorem appendVariants_le_length (variantFile : EmerCircularFile) (variants : List GVariant) :
    (appendVariants glib order variantFile variants).1 ≤ variants.length := by
  induction variants generalizing variantFile with
  | nil => exact le_refl 0
  | cons variant variants ih =>
    rw [appendVariants]
    split
    · exact Nat.zero_le _
    · rename_i appended _
      exact Nat.succ_le_succ (ih appended)

theorem store_le_length {self : EmerPersistentCache} {variants : List GVariant}
    {fault : SaveFault} {n : Nat} (h : (self.store glib order variants fault).1 = .ok n) :
    n ≤ variants.length := by
  rw [store] at h
  split at h
  · cases h
  · cases h
    exact appendVariants_le_length glib order self.variantFile variants

end EmerPersistentCache

end EventRecorder
