import EventRecorder.Daemon.CacheLaws
import EventRecorder.PersistentCache.ExactlyOnce

/-!
# The persistent cache is a lawful cache

Over an intact circular file whose operations succeed, the cache does what the daemon relies on: it
stores variants in order as far as they fit, reads them back and removes what a token stands for.
-/

namespace EventRecorder

open Theory

/-! ## 1. Variants that can be read back -/

/-- A variant whose element is short and is read back as the variant. -/
structure StorableVariant (glib : VariantLibrary) (order : ByteOrder) where
  variant : GVariant
  short : (EmerPersistentCache.storedElem glib order variant).length < 2 ^ 30
  readBack : EmerPersistentCache.readVariant glib order
    (EmerPersistentCache.storedElem glib order variant) = .ok variant

namespace StorableVariant

variable {glib : VariantLibrary} {order : ByteOrder}

/-- An event is its variant. -/
theorem variant_injective :
    Function.Injective (variant : StorableVariant glib order → GVariant) := by
  rintro ⟨variant, short, readBack⟩ ⟨variant', short', readBack'⟩ rfl
  rfl

instance : DecidableEq (StorableVariant glib order) := fun event event' =>
  decidable_of_iff (event.variant = event'.variant) variant_injective.eq_iff

def elem (event : StorableVariant glib order) : Bytes :=
  EmerPersistentCache.storedElem glib order event.variant

/-- An event takes up as many bytes as it costs. -/
theorem length_elem (event : StorableVariant glib order) (hswap : glib.SwapKeepsSize) :
    event.elem.length = emerPersistentCacheCost event.variant :=
  EmerPersistentCache.length_of_readVariant hswap event.readBack

theorem elem_injective : Function.Injective (elem : StorableVariant glib order → Bytes) := by
  intro event event' heq
  apply variant_injective
  apply Except.ok.inj (ε := GError)
  rw [← event.readBack, ← event'.readBack]
  exact congrArg _ heq

/-- Refuses a variant that cannot be one that was stored. -/
def ofVariant (variant : GVariant) : Except GError (StorableVariant glib order) :=
  if h : (EmerPersistentCache.storedElem glib order variant).length < 2 ^ 30 ∧
      EmerPersistentCache.readVariant glib order
        (EmerPersistentCache.storedElem glib order variant) = .ok variant then
    .ok ⟨variant, h.1, h.2⟩
  else .error EmerPersistentCache.corruptData

theorem ofVariant_variant (event : StorableVariant glib order) :
    ofVariant event.variant = .ok event := by
  rw [ofVariant, dif_pos ⟨event.short, event.readBack⟩]

end StorableVariant

/-! ## 2. The cache of the daemon -/

namespace EmerPersistentCache

variable (glib : VariantLibrary) (order : ByteOrder)

variable {glib order} in
theorem stored_le {cache : EmerPersistentCache} {events : List (StorableVariant glib order)}
    {fault : SaveFault} {n : Nat}
    (h : (cache.store glib order (events.map StorableVariant.variant) fault).1.toOption = some n) :
    n ≤ events.length := by
  cases hstored : (cache.store glib order (events.map StorableVariant.variant) fault).1 with
  | error e =>
    rw [hstored] at h
    cases h
  | ok numStored =>
    rw [hstored] at h
    cases h
    have hle := store_le_length glib order hstored
    rwa [List.length_map] at hle

/-- The cache with all its file operations succeeding. -/
def ops : PersistentCacheOps EmerPersistentCache (StorableVariant glib order) where
  store := fun cache events =>
    let stored := cache.store glib order (events.map StorableVariant.variant) .none
    (stored.1.toOption, stored.2)
  store_le := fun h => stored_le h
  read := fun cache maxBytes =>
    let read := cache.read glib order maxBytes true
    (read.1.bind fun result =>
      (result.1.mapM StorableVariant.ofVariant).map fun events => (events, result.2), read.2.2)
  hasMore := fun cache token => cache.hasMore token
  remove := fun cache token => cache.remove token true
  removeAll := fun cache => cache.removeAll true

variable {glib order}

/-- The circular file of the cache holds the elements of the events. -/
def Contents (capacity : Nat) (cache : EmerPersistentCache)
    (events : List (StorableVariant glib order)) : Prop :=
  cache.variantFile.maxSize = capacity ∧
    ∃ bytes, Holds cache.variantFile bytes ⟨events.map StorableVariant.elem, []⟩

/-- The token of events: the bytes that their elements take. -/
def tokenFor (events : List (StorableVariant glib order)) : Nat :=
  (encode (events.map StorableVariant.elem)).length

/-- How many of the events there is room for behind the contents. -/
def numFittingElems (capacity : Nat) (contents events : List (StorableVariant glib order)) : Nat :=
  ((⟨contents.map StorableVariant.elem, []⟩ : Fifo Bytes).appendAll frameLength capacity
    (events.map StorableVariant.elem)).1

/-- Short elements do not overflow any sum. -/
theorem sumsFit_of_short {variantFile : EmerCircularFile} {bytes : Bytes} {q : Fifo Bytes}
    (h : Holds variantFile bytes q) (hmaxSize : variantFile.maxSize < 2 ^ 63)
    (events : List (StorableVariant glib order)) :
    SumsFit glib order variantFile (events.map StorableVariant.variant) := by
  -- the file stays below its maximum size, so each further element adds little to it
  induction events generalizing variantFile q with
  | nil => trivial
  | cons event events ih =>
    have hfits := h.fits
    have hshort := event.short
    have helem : storedElem glib order event.variant ≠ [] := variantElem_ne_nil _
    obtain ⟨-, hnext⟩ := h.append_spec helem (by omega) fun _ => by omega
    have hsame := variantFile.append_maxSize (storedElem glib order event.variant)
    refine ⟨by omega, fun _ => by omega, fun _ => ih hnext ?_⟩
    rw [hsame]
    exact hmaxSize

theorem store_maxSize (self : EmerPersistentCache) (variants : List GVariant) (fault : SaveFault) :
    (self.store glib order variants fault).2.variantFile.maxSize = self.variantFile.maxSize := by
  have happended := (appendVariants_maxSize glib order self.variantFile variants).1
  have hsaved := (appendVariants glib order self.variantFile variants).2.save_maxSize fault
  rw [store]
  generalize (appendVariants glib order self.variantFile variants).2.save fault = result at *
  obtain ⟨reply, variantFile⟩ := result
  cases reply with
  | error e => exact hsaved.trans happended
  | ok done => exact hsaved.trans happended

/-- The elements of stored variants are read back as the variants. -/
theorem mapM_elems (events : List (StorableVariant glib order)) :
    (events.map StorableVariant.elem).mapM (readVariant glib order) =
      .ok (events.map StorableVariant.variant) := by
  have hread : readVariant glib order ∘ StorableVariant.elem =
      fun event : StorableVariant glib order => pure event.variant :=
    funext StorableVariant.readBack
  rw [List.mapM_map, hread, List.mapM_pure]
  rfl

theorem mapM_variants (events : List (StorableVariant glib order)) :
    (events.map StorableVariant.variant).mapM StorableVariant.ofVariant = .ok events := by
  have hof : StorableVariant.ofVariant ∘ StorableVariant.variant =
      fun event : StorableVariant glib order => (pure event : Except GError _) :=
    funext StorableVariant.ofVariant_variant
  rw [List.mapM_map, hof, List.mapM_pure, List.map_id']
  rfl

namespace Contents

variable {capacity : Nat} {cache : EmerPersistentCache}
variable {contents stored more : List (StorableVariant glib order)}

/-- A read finds the elements of a cache, and so the events they are stored from. -/
theorem unique {contents' : List (StorableVariant glib order)}
    (h : Contents capacity cache contents) (h' : Contents capacity cache contents') :
    contents = contents' := by
  obtain ⟨-, bytes, hholds⟩ := h
  obtain ⟨-, bytes', hholds'⟩ := h'
  apply StorableVariant.elem_injective.list_map
  exact (readable_eq hholds).symm.trans (readable_eq hholds')

theorem store (hcapacity : capacity < 2 ^ 63) (h : Contents capacity cache contents)
    (events : List (StorableVariant glib order)) :
    ((ops glib order).store cache events).1 = some (numFittingElems capacity contents events) ∧
      Contents capacity ((ops glib order).store cache events).2
        (contents ++ events.take (numFittingElems capacity contents events)) := by
  obtain ⟨hmaxSize, bytes, hholds⟩ := h
  have hfits := hholds.fits
  have hhead := hholds.head_lt
  obtain ⟨hanswer, bytes', hstored⟩ := store_spec hholds
    (sumsFit_of_short hholds (by omega) events) (by omega) .none
  have hfails : storeFails glib order cache.variantFile (events.map StorableVariant.variant)
      .none = false := by
    simp [storeFails, EmerCircularFile.SaveFails]
  rw [hfails, List.map_map, hmaxSize] at hanswer hstored
  have hcount : ((⟨contents.map StorableVariant.elem, []⟩ : Fifo Bytes).store frameLength
      capacity (events.map StorableVariant.elem) false).1 =
        some (numFittingElems capacity contents events) := by
    rw [Fifo.store, if_neg (by simp)]
    rfl
  refine ⟨hanswer.trans hcount, (store_maxSize cache _ .none).trans hmaxSize, bytes', ?_⟩
  -- the batch was empty before, so what is saved is what this store counts
  have hqueue := Fifo.store_succeeds frameLength capacity hcount
  rw [List.nil_append, ← List.map_take, ← List.map_append] at hqueue
  rw [← hqueue]
  exact hstored

/-- A read changes nothing and answers the longest prefix that the budget covers. -/
theorem read_eq (h : Contents capacity cache contents) (maxBytes : Nat) :
    (ops glib order).read cache maxBytes =
      (.ok (takeWithin (fun event => event.elem.length) maxBytes contents,
        tokenFor (takeWithin (fun event => event.elem.length) maxBytes contents)), cache) := by
  obtain ⟨hmaxSize, bytes, hholds⟩ := h
  have hmap : takeWithin List.length maxBytes (contents.map StorableVariant.elem) =
      (takeWithin (fun event => event.elem.length) maxBytes contents).map StorableVariant.elem :=
    takeWithin_map List.length StorableVariant.elem maxBytes contents
  generalize takeWithin (fun event : StorableVariant glib order => event.elem.length) maxBytes
    contents = stored at hmap ⊢
  have hread : cache.read glib order maxBytes true =
      (.ok (stored.map StorableVariant.variant, tokenFor stored), false, cache) := by
    rw [EmerPersistentCache.read, hholds.read_eq, Fifo.read, hmap]
    dsimp only
    rw [mapM_elems]
    rfl
  show ((cache.read glib order maxBytes true).1.bind fun result =>
    (result.1.mapM StorableVariant.ofVariant).map fun events => (events, result.2),
      (cache.read glib order maxBytes true).2.2) = _
  rw [hread]
  show (((stored.map StorableVariant.variant).mapM StorableVariant.ofVariant).map _, cache) = _
  rw [mapM_variants]
  rfl

theorem read (h : Contents capacity cache contents) (maxBytes : Nat) :
    ∃ stored, stored <+: contents ∧
      ((ops glib order).read cache maxBytes).1 = .ok (stored, tokenFor stored) ∧
      Contents capacity ((ops glib order).read cache maxBytes).2 contents := by
  rw [h.read_eq]
  exact ⟨_, takeWithin_isPrefix _ _ _, rfl, h⟩

theorem hasMore (h : Contents capacity cache (stored ++ more)) :
    cache.hasMore (tokenFor stored) = true ↔ more ≠ [] := by
  obtain ⟨-, bytes, hholds⟩ := h
  have hmore := hholds.hasMore_eq stored.length
  dsimp only at hmore
  rw [← List.map_take, List.take_left] at hmore
  rw [EmerPersistentCache.hasMore, tokenFor, hmore, Fifo.hasMore, decide_eq_true_eq,
    List.length_map, List.length_append, Nat.lt_add_right_iff_pos, List.length_pos_iff]

/-- What a read has found is at the front of the circular file, so its token takes it away, unless
the metadata file cannot be written. -/
theorem remove_cases (hcapacity : capacity < 2 ^ 63) (h : Contents capacity cache (stored ++ more))
    (saved : Bool) :
    Contents capacity (cache.remove (tokenFor stored) saved).2 more ∨
      saved = false ∧ Contents capacity (cache.remove (tokenFor stored) saved).2
        (stored ++ more) := by
  obtain ⟨hmaxSize, bytes, hholds⟩ := h
  have hfits := hholds.fits
  have hhead := hholds.head_lt
  have hsize := hholds.size_eq
  dsimp only at hsize
  rw [List.map_append, encode_append, List.length_append] at hsize
  have htake : ((stored ++ more).map StorableVariant.elem).take stored.length =
      stored.map StorableVariant.elem := by
    rw [← List.map_take, List.take_left]
  have hremove := hholds.remove_spec (n := stored.length) (by dsimp only; rw [htake]; omega) saved
  dsimp only at hremove
  rw [htake] at hremove
  have hsame := (cache.variantFile.remove_maxSize (tokenFor stored) saved).trans hmaxSize
  rcases hremove with ⟨-, hremoved⟩ | ⟨-, hfailed, hkept⟩
  · rw [Fifo.remove, ← List.map_drop, List.drop_left] at hremoved
    exact .inl ⟨hsame, bytes, hremoved⟩
  · exact .inr ⟨hfailed, hsame, bytes, hkept⟩

theorem remove (hcapacity : capacity < 2 ^ 63) (h : Contents capacity cache (stored ++ more)) :
    Contents capacity (cache.remove (tokenFor stored) true).2 more := by
  rcases h.remove_cases hcapacity true with hremoved | ⟨hfailed, -⟩
  · exact hremoved
  · cases hfailed

theorem removeAll (h : Contents capacity cache contents) :
    Contents capacity (cache.removeAll true).2 ([] : List (StorableVariant glib order)) := by
  obtain ⟨hmaxSize, bytes, hholds⟩ := h
  refine ⟨(cache.variantFile.purge_maxSize true).trans hmaxSize, bytes, ?_⟩
  rcases hholds.purge_spec true with ⟨-, hpurged⟩ | ⟨-, hfailed, -⟩
  · exact hpurged
  · cases hfailed

end Contents

/-- **The cache over an intact circular file is lawful.** -/
theorem lawful {capacity : Nat} (hcapacity : capacity < 2 ^ 63) :
    LawfulCache (ops glib order) (Contents capacity) (numFittingElems capacity) tokenFor where
  token_nil := rfl
  unique := Contents.unique
  store := fun events h => h.store hcapacity events
  read := fun maxBytes h => h.read maxBytes
  hasMore := Contents.hasMore
  remove := Contents.remove hcapacity
  removeAll := Contents.removeAll

/-! ## 3. Failing operations -/

variable (glib order) in
/-- The cache whose stores fail as `storeFault` says, and whose removals can write the metadata file
where `removalSaved` says so.  Beside it is the number of stores and removals so far. -/
def opsWithFaults (storeFault : Nat → SaveFault) (removalSaved : Nat → Bool) :
    PersistentCacheOps (EmerPersistentCache × Nat) (StorableVariant glib order) where
  store cache events :=
    let stored := cache.1.store glib order (events.map StorableVariant.variant)
      (storeFault cache.2)
    (stored.1.toOption, stored.2, cache.2 + 1)
  store_le h := stored_le h
  read cache maxBytes :=
    let read := (ops glib order).read cache.1 maxBytes
    (read.1, read.2, cache.2)
  hasMore cache token := cache.1.hasMore token
  remove cache token :=
    let removed := cache.1.remove token (removalSaved cache.2)
    (removed.1, removed.2, cache.2 + 1)
  removeAll cache :=
    let removed := cache.1.removeAll true
    (removed.1, removed.2, cache.2)

theorem removeAll_saved (self : EmerPersistentCache) : (self.removeAll true).1 = .ok () := by
  unfold removeAll EmerCircularFile.purge
  by_cases hsize : self.variantFile.size = 0
  · rw [if_pos hsize]
  · rw [if_neg hsize]
    rfl

/-- **What is in the cache stays confined when removals fail.** -/
theorem confined_removals {capacity : Nat} (hcapacity : capacity < 2 ^ 63)
    (removalSaved : Nat → Bool) :
    ConfinedCache (opsWithFaults glib order (fun _ => .none) removalSaved)
      (fun cache => LawfulCache.AllOf (@Contents glib order capacity) cache.1)
      (fun cache => LawfulCache.TokenOf (@Contents glib order capacity) tokenFor cache.1) := by
  have hconfined := (@lawful glib order capacity hcapacity).confined
  exact
    { mono := hconfined.mono
      zero := hconfined.zero
      storeSucceeds := hconfined.storeSucceeds
      store := hconfined.store
      tokenStored := hconfined.tokenStored
      read := hconfined.read
      eventsRead := hconfined.eventsRead
      remove := by
        rintro cache P token ⟨contents, hcontents, hall⟩ ⟨stored, more, hsplit, rfl⟩
        obtain rfl := Contents.unique hcontents hsplit
        rcases hsplit.remove_cases hcapacity (removalSaved cache.2) with hmore | ⟨-, hkept⟩
        · exact ⟨more, hmore, fun event hevent => hall event (List.mem_append_right _ hevent)⟩
        · exact ⟨stored ++ more, hkept, hall⟩
      removeAll := hconfined.removeAll
      removedAll := fun hwithin hcleared => hconfined.removedAll hwithin hcleared }

end EmerPersistentCache

end EventRecorder
