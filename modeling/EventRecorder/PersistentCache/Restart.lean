import EventRecorder.CircularFile.Lives
import EventRecorder.PersistentCache.Lawful

/-!
# The persistent cache over restarts

A cache whose metadata file is up to date can be closed and opened again, at the same size or at
another one, and then has the events at the front of its contents that there is room for.
-/

namespace EventRecorder

open Theory

namespace EmerPersistentCache

variable {glib : VariantLibrary} {order : ByteOrder} {capacity : Nat}
  {cache : EmerPersistentCache} {contents : List (StorableVariant glib order)}

/-! ## 1. Contents with up-to-date metadata -/

/-- The events in a cache, which are on disk as well. -/
structure SyncedContents (capacity : Nat) (cache : EmerPersistentCache)
    (contents : List (StorableVariant glib order)) : Prop where
  contents : Contents capacity cache contents
  synced : cache.variantFile.Synced

theorem appendVariants_synced {variantFile : EmerCircularFile} (h : variantFile.Synced)
    (variants : List GVariant) : (appendVariants glib order variantFile variants).2.Synced := by
  induction variants generalizing variantFile with
  | nil => exact h
  | cons variant variants ih =>
    have happended := h.append (storedElem glib order variant)
    rw [appendVariants]
    generalize variantFile.append (storedElem glib order variant) = answer at happended
    obtain ⟨accepted, file⟩ := answer
    cases accepted with
    | false => exact happended
    | true => exact ih happended

namespace SyncedContents

theorem store (hcapacity : capacity < 2 ^ 63) (h : SyncedContents capacity cache contents)
    (events : List (StorableVariant glib order)) :
    ((ops glib order).store cache events).2.variantFile.Synced := by
  obtain ⟨hmaxSize, bytes, hholds⟩ := h.contents
  obtain ⟨-, hafter⟩ := appendVariants_spec hholds
    (sumsFit_of_short hholds (by omega) events)
  have hsame := (appendVariants_maxSize glib order cache.variantFile
    (events.map StorableVariant.variant)).1
  have hfits := hafter.fits
  have hsaved := (@appendVariants_synced glib order _ h.synced
    (events.map StorableVariant.variant)).save (by omega)
  show (cache.store glib order (events.map StorableVariant.variant) .none).2.variantFile.Synced
  unfold EmerPersistentCache.store
  simp only
  generalize (appendVariants glib order cache.variantFile
    (events.map StorableVariant.variant)).2.save .none = answer at hsaved
  obtain ⟨e | done, file⟩ := answer
  · exact hsaved
  · exact hsaved

theorem remove (hcapacity : capacity < 2 ^ 63) (h : SyncedContents capacity cache contents)
    (token : Nat) : (cache.remove token true).2.variantFile.Synced := by
  obtain ⟨hmaxSize, bytes, hholds⟩ := h.contents
  have hhead := hholds.head_lt
  exact h.synced.remove_below (by omega) (by omega) token

end SyncedContents

/-- **The cache is lawful together with its metadata file.** -/
theorem lawful_synced (hcapacity : capacity < 2 ^ 63) :
    LawfulCache (ops glib order) (SyncedContents capacity) (numFittingElems capacity) tokenFor where
  token_nil := rfl
  unique := fun h h' => h.contents.unique h'.contents
  store := by
    intro cache contents events h
    obtain ⟨hcount, hcontents⟩ := h.contents.store hcapacity events
    exact ⟨hcount, hcontents, h.store hcapacity events⟩
  read := by
    intro cache contents maxBytes h
    rw [h.contents.read_eq]
    exact ⟨_, takeWithin_isPrefix _ _ _, rfl, h⟩
  hasMore := fun h => h.contents.hasMore
  remove := fun h => ⟨h.contents.remove hcapacity, h.remove hcapacity _⟩
  removeAll := fun h => ⟨h.contents.removeAll, h.synced.purge⟩

/-! ## 2. Closing and opening -/

/-- The cache is closed and opened at a maximum size.  `discarded` says whether the variants were
stored by another version or without a boot offset, so that they are purged. -/
def reopen (self : EmerPersistentCache) (cacheSize : Nat) (uninitialised : Nat → UInt8)
    (discarded : Bool) : Except GError EmerPersistentCache :=
  match EmerCircularFile.new self.variantFile.disk cacheSize false uninitialised .none with
  | (.error e, _) => .error e
  | (.ok variantFile, _) =>
    .ok (if discarded then (EmerPersistentCache.mk variantFile).removeAll true |>.2
      else ⟨variantFile⟩)

/-- What is opened has the events at the front that there is room for, unless it is purged. -/
theorem SyncedContents.reopen_exactly (h : SyncedContents capacity cache contents)
    {cacheSize : Nat} (hpos : 1 ≤ cacheSize) (hcacheSize : cacheSize < 2 ^ 63)
    (uninitialised : Nat → UInt8) (discarded : Bool) :
    ∃ opened, cache.reopen cacheSize uninitialised discarded = .ok opened ∧
      SyncedContents cacheSize opened (if discarded then []
        else takeWithin (frameLength ∘ StorableVariant.elem) cacheSize contents) := by
  obtain ⟨hmaxSize, bytes, hholds⟩ := h.contents
  have hrefines : Refines cache.variantFile.maxSize ⟨cache.variantFile, []⟩
      ⟨⟨contents.map StorableVariant.elem, []⟩, []⟩ := .ofRemoval rfl h.synced hholds
  obtain ⟨bytes', hkeeps⟩ := hrefines.keeps
  obtain ⟨file, contents', hnew, hopened, -⟩ :=
    hkeeps.storedOnDisk.new_keeps hpos (by omega) uninitialised
  have hmap : takeWithin frameLength cacheSize (contents.map StorableVariant.elem) =
      (takeWithin (frameLength ∘ StorableVariant.elem) cacheSize contents).map
        StorableVariant.elem := takeWithin_map frameLength StorableVariant.elem cacheSize contents
  rw [hmap] at hopened
  have hafter := hopened.refines trivial
  obtain ⟨bytes'', hholds'⟩ := hafter.holds
  have hkept : SyncedContents cacheSize ⟨file⟩
      (takeWithin (frameLength ∘ StorableVariant.elem) cacheSize contents) :=
    ⟨⟨hafter.maxSize_eq, bytes'', hholds'⟩, hafter.synced⟩
  unfold EmerPersistentCache.reopen
  rw [hnew]
  cases discarded with
  | false => exact ⟨_, rfl, hkept⟩
  | true => exact ⟨_, rfl, hkept.contents.removeAll, hkept.synced.purge⟩

/-- What is opened has the first of the events. -/
theorem SyncedContents.reopen (h : SyncedContents capacity cache contents) {cacheSize : Nat}
    (hpos : 1 ≤ cacheSize) (hcacheSize : cacheSize < 2 ^ 63) (uninitialised : Nat → UInt8)
    (discarded : Bool) :
    ∃ opened kept, cache.reopen cacheSize uninitialised discarded = .ok opened ∧
      kept <+: contents ∧ SyncedContents cacheSize opened kept := by
  obtain ⟨opened, hopened, hkept⟩ := h.reopen_exactly hpos hcacheSize uninitialised discarded
  refine ⟨opened, _, hopened, ?_, hkept⟩
  cases discarded with
  | false => exact takeWithin_isPrefix _ _ _
  | true => exact List.nil_prefix

end EmerPersistentCache

end EventRecorder
