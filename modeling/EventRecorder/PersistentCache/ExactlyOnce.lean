import EventRecorder.Daemon.EventBuffer
import EventRecorder.PersistentCache.Basic
import EventRecorder.Theory.Run

/-!
# Storing in the persistent cache exactly once

A store that fails keeps what it has appended in the write buffer of the circular file, while the
daemon keeps the same events in its own buffer.  The next store that succeeds writes both.
-/

namespace EventRecorder

open Theory

/-! ## 1. The cache as a queue -/

namespace EmerPersistentCache

variable (glib : VariantLibrary) (order : ByteOrder)

/-- The sums that the appends of a store compute stay below `2^63`, the length of the write buffer
below `2^32`. -/
def SumsBelow (variantFile : EmerCircularFile) : List GVariant → Prop
  | [] => True
  | variant :: variants =>
    variantFile.size + variantFile.writeBuffer.length +
        (8 + (storedElem glib order variant).length) < 2 ^ 63 ∧
      variantFile.writeBuffer.length + (8 + (storedElem glib order variant).length) < 2 ^ 32 ∧
      ((variantFile.append (storedElem glib order variant)).1 = true →
        SumsBelow (variantFile.append (storedElem glib order variant)).2 variants)

instance SumsBelow.decidable :
    ∀ variantFile variants, Decidable (SumsBelow glib order variantFile variants)
  | _, [] => isTrue trivial
  | variantFile, variant :: variants =>
    have : Decidable (SumsBelow glib order
        (variantFile.append (storedElem glib order variant)).2 variants) :=
      SumsBelow.decidable _ variants
    inferInstanceAs (Decidable (_ ∧ _ ∧ (_ → _)))

/-- The sums fit in a `guint64`, and so do the lengths of what is appended in a `guint`. -/
def SumsFit (variantFile : EmerCircularFile) : List GVariant → Prop
  | [] => True
  | variant :: variants =>
    variantFile.size + variantFile.writeBuffer.length +
        (8 + (storedElem glib order variant).length) < 2 ^ 64 ∧
      (variantFile.size + variantFile.writeBuffer.length +
          (8 + (storedElem glib order variant).length) ≤ variantFile.maxSize →
        (storedElem glib order variant).length < 2 ^ 32) ∧
      ((variantFile.append (storedElem glib order variant)).1 = true →
        SumsFit (variantFile.append (storedElem glib order variant)).2 variants)

variable {glib order} {variantFile : EmerCircularFile} {contents : Bytes} {q : Fifo Bytes}

theorem SumsBelow.fit {variants : List GVariant} (h : SumsBelow glib order variantFile variants) :
    SumsFit glib order variantFile variants := by
  induction variants generalizing variantFile with
  | nil => trivial
  | cons variant variants ih =>
    obtain ⟨hsum, hbuffer, hrest⟩ := h
    exact ⟨by omega, fun _ => by omega, fun haccepted => ih (hrest haccepted)⟩

variable (glib order) in
theorem appendVariants_maxSize (variantFile : EmerCircularFile) (variants : List GVariant) :
    (appendVariants glib order variantFile variants).2.maxSize = variantFile.maxSize ∧
      (appendVariants glib order variantFile variants).2.head = variantFile.head ∧
      (appendVariants glib order variantFile variants).2.size = variantFile.size := by
  induction variants generalizing variantFile with
  | nil => exact ⟨rfl, rfl, rfl⟩
  | cons variant variants ih =>
    have hmaxSize := variantFile.append_maxSize (storedElem glib order variant)
    have hhead := variantFile.append_head (storedElem glib order variant)
    have hsize := variantFile.append_size (storedElem glib order variant)
    rw [appendVariants]
    split
    · rename_i appended heq
      rw [heq] at hmaxSize hhead hsize
      exact ⟨hmaxSize, hhead, hsize⟩
    · rename_i appended heq
      rw [heq] at hmaxSize hhead hsize
      obtain ⟨hmaxSize', hhead', hsize'⟩ := ih appended
      exact ⟨hmaxSize'.trans hmaxSize, hhead'.trans hhead, hsize'.trans hsize⟩

theorem appendVariants_disk (variantFile : EmerCircularFile) (variants : List GVariant) :
    (appendVariants glib order variantFile variants).2.disk = variantFile.disk := by
  induction variants generalizing variantFile with
  | nil => rfl
  | cons variant variants ih =>
    have hdisk := variantFile.append_disk (storedElem glib order variant)
    rw [appendVariants]
    generalize variantFile.append (storedElem glib order variant) = answer at hdisk
    obtain ⟨accepted, file⟩ := answer
    cases accepted with
    | false => exact hdisk
    | true => exact (ih file).trans hdisk

/-- Appending variants appends their elements to the queue. -/
theorem appendVariants_spec (h : Holds variantFile contents q) {variants : List GVariant}
    (hsums : SumsFit glib order variantFile variants) :
    (appendVariants glib order variantFile variants).1 =
        (q.appendAll frameLength variantFile.maxSize (variants.map (storedElem glib order))).1 ∧
      Holds (appendVariants glib order variantFile variants).2 contents
        (q.appendAll frameLength variantFile.maxSize (variants.map (storedElem glib order))).2 := by
  induction variants generalizing variantFile q with
  | nil => exact ⟨rfl, h⟩
  | cons variant variants ih =>
    obtain ⟨hsum, hlen, hrest⟩ := hsums
    have helem : storedElem glib order variant ≠ [] := variantElem_ne_nil _
    obtain ⟨hreply, hnext⟩ := h.append_spec helem hsum hlen
    have hmaxSize := variantFile.append_maxSize (storedElem glib order variant)
    rw [appendVariants, List.map_cons, Fifo.appendAll]
    -- the two appends accept or refuse together
    generalize variantFile.append (storedElem glib order variant) = result at *
    generalize q.append frameLength variantFile.maxSize (storedElem glib order variant) =
      appended at *
    obtain ⟨accepted, file⟩ := result
    obtain ⟨accepted', q'⟩ := appended
    obtain rfl : accepted = accepted' := hreply
    cases accepted with
    | false => exact ⟨rfl, hnext⟩
    | true =>
      obtain ⟨hcount, hholds⟩ := ih hnext (hrest rfl)
      dsimp only at hmaxSize
      rw [hmaxSize] at hcount hholds
      exact ⟨congrArg (· + 1) hcount, hholds⟩

/-- Whether the save at the end of a store fails. -/
def storeFails (glib : VariantLibrary) (order : ByteOrder) (variantFile : EmerCircularFile)
    (variants : List GVariant) (fault : SaveFault) : Bool :=
  (appendVariants glib order variantFile variants).2.SaveFails fault

/-- A store over a circular file is a store over the queue that the file holds. -/
theorem store_spec {self : EmerPersistentCache} (h : Holds self.variantFile contents q)
    {variants : List GVariant} (hsums : SumsFit glib order self.variantFile variants)
    (hoffset : self.variantFile.head + self.variantFile.size < 2 ^ 64) (fault : SaveFault) :
    (self.store glib order variants fault).1.toOption =
        (q.store frameLength self.variantFile.maxSize (variants.map (storedElem glib order))
          (storeFails glib order self.variantFile variants fault)).1 ∧
      ∃ contents', Holds (self.store glib order variants fault).2.variantFile contents'
        (q.store frameLength self.variantFile.maxSize (variants.map (storedElem glib order))
          (storeFails glib order self.variantFile variants fault)).2 := by
  obtain ⟨hcount, hholds⟩ := appendVariants_spec h hsums
  obtain ⟨hmaxSize, hhead, hsize⟩ := appendVariants_maxSize glib order
    self.variantFile variants
  have hfits := hholds.fits
  have hlt := hholds.maxSize_lt
  rw [store, Fifo.store, storeFails]
  generalize appendVariants glib order self.variantFile variants = appended at *
  generalize q.appendAll frameLength self.variantFile.maxSize
    (variants.map (storedElem glib order)) = appendedAll at *
  obtain ⟨n, file⟩ := appended
  obtain ⟨n', q'⟩ := appendedAll
  obtain rfl : n = n' := hcount
  dsimp only at hholds hhead hsize hfits hlt
  have hiff := EmerCircularFile.save_ok_iff (by omega) hholds.dataFile fault
  obtain ⟨contents', hspec⟩ := hholds.save_spec (by omega) fault
  -- a save that fails has something to save, which is the batch of the queue
  by_cases hfails : file.SaveFails fault
  · have hunsaved : q'.unsaved ≠ [] := by
      intro hnil
      apply hfails.1
      rw [hholds.writeBuffer_eq, hnil, encode_nil, List.length_nil]
    rcases hspec with ⟨hreply, -⟩ | ⟨hreply, hnext⟩
    · exact absurd hfails (hiff.mp hreply)
    · simp only
      rw [if_pos ⟨by simp [hfails], hunsaved⟩]
      generalize file.save fault = result at hreply hnext
      obtain ⟨reply, file'⟩ := result
      obtain rfl : reply = .error .failed := hreply
      exact ⟨rfl, contents', hnext⟩
  · rcases hspec with ⟨hreply, hnext⟩ | ⟨hreply, -⟩
    · simp only
      rw [if_neg (by simp [hfails])]
      generalize file.save fault = result at hreply hnext
      obtain ⟨reply, file'⟩ := result
      obtain rfl : reply = .ok () := hreply
      exact ⟨rfl, contents', hnext⟩
    · rw [hiff.mpr hfails] at hreply
      cases hreply

/-! ## 2. One store -/

/-- The elements that a read without a limit finds. -/
def readable (self : EmerPersistentCache) : List Bytes :=
  match (self.variantFile.read (2 ^ 64 - 1) true).1 with
  | .ok result => result.elems
  | .error _ => []

theorem readable_eq {self : EmerPersistentCache} (h : Holds self.variantFile contents q) :
    self.readable = q.saved := by
  have hfits := h.fits
  have hlt := h.maxSize_lt
  have hsize := h.size_eq
  have hsum := sum_length_le_length_encode q.saved
  rw [readable, h.read_eq]
  exact takeWithin_of_sum_le (by omega)

structure StoreCall where
  variants : List GVariant
  fault : SaveFault

def storeStep (glib : VariantLibrary) (order : ByteOrder) (self : EmerPersistentCache)
    (call : StoreCall) : EmerPersistentCache :=
  (self.store glib order call.variants call.fault).2

/-- The elements that a store answers for: none when it fails, else as many as it says. -/
def answeredFor (glib : VariantLibrary) (order : ByteOrder) (variants : List GVariant) :
    Except GError Nat → List Bytes
  | .error _ => []
  | .ok numVariantsStored => (variants.take numVariantsStored).map (storedElem glib order)

/-- A store adds to the readable elements exactly what it answers for. -/
def ExactlyOnce (glib : VariantLibrary) (order : ByteOrder) (self : EmerPersistentCache)
    (call : StoreCall) : Prop :=
  (storeStep glib order self call).readable =
    self.readable ++
      answeredFor glib order call.variants (self.store glib order call.variants call.fault).1

instance (glib : VariantLibrary) (order : ByteOrder) (self : EmerPersistentCache)
    (call : StoreCall) : Decidable (ExactlyOnce glib order self call) :=
  inferInstanceAs (Decidable (_ = _))

/-- Nothing is left in the write buffer from before, unless an operation of the save fails. -/
def StartsClean (glib : VariantLibrary) (order : ByteOrder) (self : EmerPersistentCache)
    (call : StoreCall) : Prop :=
  self.variantFile.writeBuffer = [] ∨
    storeFails glib order self.variantFile call.variants call.fault = true

def Admits (glib : VariantLibrary) (order : ByteOrder) (self : EmerPersistentCache)
    (call : StoreCall) : Prop :=
  SumsBelow glib order self.variantFile call.variants ∧
    self.variantFile.head + self.variantFile.size < 2 ^ 63

instance (glib : VariantLibrary) (order : ByteOrder) (self : EmerPersistentCache)
    (call : StoreCall) : Decidable (Admits glib order self call) :=
  inferInstanceAs (Decidable (_ ∧ _))

/-- The circular file holds some queue. -/
def Intact (self : EmerPersistentCache) : Prop :=
  ∃ contents q, Holds self.variantFile contents q

theorem Intact.storeStep {self : EmerPersistentCache} (h : self.Intact) {call : StoreCall}
    (hcall : Admits glib order self call) : (storeStep glib order self call).Intact := by
  obtain ⟨contents, q, hholds⟩ := h
  obtain ⟨-, contents', hnext⟩ := store_spec hholds hcall.1.fit (lt_trans hcall.2 (by decide))
    call.fault
  exact ⟨contents', _, hnext⟩

theorem exactlyOnce_iff_startsClean {self : EmerPersistentCache} (h : self.Intact)
    {call : StoreCall} (hcall : Admits glib order self call) :
    ExactlyOnce glib order self call ↔ StartsClean glib order self call := by
  obtain ⟨contents, q, hholds⟩ := h
  obtain ⟨hreply, contents', hnext⟩ := store_spec hholds hcall.1.fit (lt_trans hcall.2 (by decide))
    call.fault
  have hempty : self.variantFile.writeBuffer = [] ↔ q.unsaved = [] := by
    rw [hholds.writeBuffer_eq, ← List.length_eq_zero_iff, length_encode_eq_zero]
  rw [ExactlyOnce, StartsClean, readable_eq hholds, EmerPersistentCache.storeStep,
    readable_eq hnext, hempty]
  generalize storeFails glib order self.variantFile call.variants call.fault = fails at *
  -- a failed store adds nothing that can be read and answers for nothing
  cases hresult : (self.store glib order call.variants call.fault).1 with
  | error e =>
    rw [hresult] at hreply
    obtain ⟨hfails, hsaved⟩ := Fifo.store_fails _ _ hreply.symm
    rw [hsaved, answeredFor, List.append_nil]
    exact iff_of_true rfl (.inr hfails)
  | ok n =>
    rw [hresult] at hreply
    rw [Fifo.store_succeeds _ _ hreply.symm, answeredFor, List.append_right_inj, ← List.map_take]
    -- a store that succeeds also saves what was in the write buffer before it
    constructor
    · intro hsame
      exact .inl (List.append_left_eq_self.mp hsame)
    · rintro (hclean | rfl)
      · rw [hclean, List.nil_append]
      · rw [Fifo.unsaved_eq_nil_of_store _ _ hreply.symm, List.nil_append]

/-- In every run of stores, each adds exactly what it answers for exactly when none that succeeds
finds elements in the write buffer. -/
theorem eachStep_exactlyOnce_iff {self : EmerPersistentCache} (h : self.Intact)
    {calls : List StoreCall}
    (hcalls : EachStep (storeStep glib order) (Admits glib order) self calls) :
    EachStep (storeStep glib order) (ExactlyOnce glib order) self calls ↔
      EachStep (storeStep glib order) (StartsClean glib order) self calls :=
  eachStep_congr (fun _ _ hintact hcall => hintact.storeStep hcall)
    (fun _ _ hintact hcall => exactlyOnce_iff_startsClean hintact hcall) h hcalls

end EmerPersistentCache

/-! ## 3. The daemon's retry -/

/-- The part of the daemon that flushing works on, with the events accepted so far. -/
structure FlushingDaemon where
  persistentCache : EmerPersistentCache
  buffer : EventBuffer GVariant
  recordingEnabled : Bool
  accepted : List GVariant

inductive FlushingOp where
  | record (event : GVariant)
  | flush (fault : SaveFault)

namespace FlushingDaemon

variable (glib : VariantLibrary) (order : ByteOrder)

def storeIn (fault : SaveFault) (cache : EmerPersistentCache) (events : List GVariant) :
    Option Nat × EmerPersistentCache :=
  let result := cache.store glib order events fault
  (result.1.toOption, result.2)

def recordEvent (self : FlushingDaemon) (event : GVariant) : FlushingDaemon :=
  if self.recordingEnabled then
    { self with
      buffer := self.buffer.bufferEvent emerPersistentCacheCost event
      accepted :=
        if self.buffer.accepts emerPersistentCacheCost event then self.accepted ++ [event]
        else self.accepted }
  else self

def flush (self : FlushingDaemon) (fault : SaveFault) : Option FlushingDaemon :=
  (self.buffer.flushToPersistentCache emerPersistentCacheCost (storeIn glib order fault)
    self.recordingEnabled self.persistentCache).map fun result =>
      { self with persistentCache := result.1, buffer := result.2 }

def step (self : FlushingDaemon) : FlushingOp → FlushingDaemon
  | .record event => self.recordEvent event
  | .flush fault => (self.flush glib order fault).getD self

/-- The store that a flush makes, if it makes one. -/
def storeCall (self : FlushingDaemon) : FlushingOp → Option EmerPersistentCache.StoreCall
  | .record _ => none
  | .flush fault =>
    if self.recordingEnabled ∧ self.buffer.variantArray ≠ [] then
      some ⟨self.buffer.variantArray, fault⟩
    else none

/-- What is readable and what is buffered make up, in order, what was there to begin with and what
has been accepted since. -/
def NoneTwice (start : List Bytes) (self : FlushingDaemon) : Prop :=
  self.persistentCache.readable ++ self.buffer.variantArray.map
      (EmerPersistentCache.storedElem glib order) =
    start ++ self.accepted.map (EmerPersistentCache.storedElem glib order)

def Admits (self : FlushingDaemon) (op : FlushingOp) : Prop :=
  ∀ call ∈ self.storeCall op, EmerPersistentCache.Admits glib order self.persistentCache call

instance (self : FlushingDaemon) (op : FlushingOp) : Decidable (self.Admits glib order op) :=
  inferInstanceAs (Decidable (∀ call ∈ self.storeCall op, _))

def StartsClean (self : FlushingDaemon) (op : FlushingOp) : Prop :=
  ∀ call ∈ self.storeCall op, EmerPersistentCache.StartsClean glib order self.persistentCache call

variable {glib order} {self : FlushingDaemon} {start : List Bytes}

variable (glib order) in
theorem flush_of_storeCall {fault : SaveFault} {call : EmerPersistentCache.StoreCall}
    (hcall : call ∈ self.storeCall (.flush fault)) :
    call = ⟨self.buffer.variantArray, fault⟩ ∧
      self.flush glib order fault =
        match (self.persistentCache.store glib order self.buffer.variantArray fault).1 with
        | .error _ => some { self with
            persistentCache :=
              (self.persistentCache.store glib order self.buffer.variantArray fault).2 }
        | .ok n => (self.buffer.removeEvents emerPersistentCacheCost n).map fun buffer =>
            { self with
              persistentCache :=
                (self.persistentCache.store glib order self.buffer.variantArray fault).2
              buffer := buffer } := by
  rw [storeCall] at hcall
  split at hcall
  -- recording is on and the buffer is not empty, so the flush gets to the store
  · rename_i hstores
    obtain ⟨hrecording, hne⟩ := hstores
    have hlen : self.buffer.variantArray.length ≠ 0 := by
      simpa [List.length_eq_zero_iff] using hne
    refine ⟨(Option.some.inj hcall).symm, ?_⟩
    rw [flush, EventBuffer.flushToPersistentCache, hrecording, if_neg (by decide), if_neg hlen]
    simp only [storeIn]
    cases (self.persistentCache.store glib order self.buffer.variantArray fault).1 with
    | error e => rfl
    | ok n => simp only [Except.toOption, Option.map_map]; rfl
  · cases hcall

variable (start) in
/-- A flush that makes a store leaves everything in its place exactly if the store starts clean. -/
theorem flush_spec (h : self.persistentCache.Intact) {fault : SaveFault}
    (hadm : self.Admits glib order (.flush fault)) :
    ∃ self', self.flush glib order fault = some self' ∧ self'.persistentCache.Intact ∧
      (NoneTwice glib order start self →
        (NoneTwice glib order start self' ↔ self.StartsClean glib order (.flush fault))) := by
  cases hcall : self.storeCall (.flush fault) with
  | none =>
    have hflush : self.flush glib order fault = some self := by
      rw [storeCall] at hcall
      split at hcall
      · cases hcall
      · rename_i hidle
        rw [flush, EventBuffer.flushToPersistentCache]
        by_cases hrecording : self.recordingEnabled = true
        · have hempty : self.buffer.variantArray = [] := by
            by_contra hne
            exact hidle ⟨hrecording, hne⟩
          rw [if_neg (by simp [hrecording]), if_pos (by rw [hempty]; rfl)]
          rfl
        · rw [if_pos (by simpa using hrecording)]
          rfl
    refine ⟨self, hflush, h, fun hsame => iff_of_true hsame fun call hmem => ?_⟩
    rw [hcall] at hmem
    cases hmem
  | some call =>
    have hmem : call ∈ self.storeCall (.flush fault) := hcall
    obtain ⟨hcallEq, hflush⟩ := flush_of_storeCall glib order hmem
    have hadmits := hadm call hmem
    have hexact := EmerPersistentCache.exactlyOnce_iff_startsClean h hadmits
    have hintact := h.storeStep hadmits
    have hclean : self.StartsClean glib order (.flush fault) ↔
        EmerPersistentCache.StartsClean glib order self.persistentCache call := by
      simp [StartsClean, hcall]
    -- either way, the law afterwards says that the readable elements have grown as answered
    have hgrown : ∀ (answered rest : List Bytes),
        answered ++ rest = self.buffer.variantArray.map
          (EmerPersistentCache.storedElem glib order) →
        NoneTwice glib order start self → ∀ readable',
        (readable' ++ rest =
            start ++ self.accepted.map (EmerPersistentCache.storedElem glib order) ↔
          readable' = self.persistentCache.readable ++ answered) := by
      intro answered rest hsplit hsame readable'
      rw [← hsame, ← hsplit, ← List.append_assoc, List.append_left_inj]
    rw [hclean, ← hexact, EmerPersistentCache.ExactlyOnce]
    subst hcallEq
    rw [hflush]
    cases hresult : (self.persistentCache.store glib order self.buffer.variantArray fault).1 with
    | error e =>
      refine ⟨_, rfl, hintact, fun hsame => ?_⟩
      exact hgrown [] _ (List.nil_append _) hsame _
    | ok n =>
      have hle := EmerPersistentCache.store_le_length glib order hresult
      obtain ⟨buffer, hremove⟩ : ∃ buffer,
          self.buffer.removeEvents emerPersistentCacheCost n = some buffer :=
        EventBuffer.removeEvents_isSome hle
      obtain ⟨-, hdrop⟩ := EventBuffer.removeEvents_eq_some hremove
      have hsplit : EmerPersistentCache.answeredFor glib order self.buffer.variantArray (.ok n) ++
          (self.buffer.variantArray.drop n).map (EmerPersistentCache.storedElem glib order) =
            self.buffer.variantArray.map (EmerPersistentCache.storedElem glib order) := by
        rw [EmerPersistentCache.answeredFor, ← List.map_append, List.take_append_drop]
      simp only [hremove, Option.map_some]
      refine ⟨_, rfl, hintact, fun hsame => ?_⟩
      simp only [NoneTwice, hdrop]
      exact hgrown _ _ hsplit hsame _

theorem recordEvent_noneTwice (event : GVariant) (hsame : NoneTwice glib order start self) :
    NoneTwice glib order start (self.recordEvent event) := by
  rw [recordEvent]
  split
  · rw [NoneTwice] at hsame ⊢
    rw [EventBuffer.variantArray_bufferEvent]
    by_cases haccepts : self.buffer.accepts emerPersistentCacheCost event
    · simp only [if_pos haccepts, List.map_append, ← List.append_assoc, hsame]
    · simp only [if_neg haccepts, hsame]
  · exact hsame

theorem step_intact (h : self.persistentCache.Intact) {op : FlushingOp}
    (hadm : self.Admits glib order op) : (self.step glib order op).persistentCache.Intact := by
  cases op with
  | record event =>
    rw [step, recordEvent]
    split <;> exact h
  | flush fault =>
    obtain ⟨self', hflush, hintact, -⟩ := flush_spec [] h hadm
    rwa [step, hflush]

theorem step_noneTwice_iff (h : self.persistentCache.Intact) {op : FlushingOp}
    (hadm : self.Admits glib order op) (hsame : NoneTwice glib order start self) :
    NoneTwice glib order start (self.step glib order op) ↔ self.StartsClean glib order op := by
  cases op with
  | record event =>
    refine iff_of_true (recordEvent_noneTwice event hsame) fun call hmem => ?_
    cases hmem
  | flush fault =>
    obtain ⟨self', hflush, -, hiff⟩ := flush_spec start h hadm
    rw [step, hflush]
    exact hiff hsame

/-- The daemon's events are neither lost nor stored twice exactly when no flush that succeeds finds
elements in the write buffer. -/
theorem throughout_noneTwice_iff (h : self.persistentCache.Intact) {ops : List FlushingOp}
    (hops : EachStep (step glib order) (Admits glib order) self ops)
    (hsame : NoneTwice glib order start self) :
    Throughout (step glib order) (NoneTwice glib order start) self ops ↔
      EachStep (step glib order) (StartsClean glib order) self ops :=
  throughout_iff_eachStep (I := fun self => self.persistentCache.Intact)
    (fun _ _ hintact hadm => step_intact hintact hadm)
    (fun _ _ hintact hadm hsame => step_noneTwice_iff hintact hadm hsame) h hsame hops

/-- What is in the daemon's hands when it starts: the cache and the buffer. -/
def initially (glib : VariantLibrary) (order : ByteOrder) (self : FlushingDaemon) : List Bytes :=
  self.persistentCache.readable ++
    self.buffer.variantArray.map (EmerPersistentCache.storedElem glib order)

end FlushingDaemon

/-- **Storing is exactly-once across failures exactly when no store that succeeds starts with
elements that a failed one has left in the write buffer**, for stores of any variants and for the
daemon's own flushes. -/
theorem exactlyOnce_across_failures_iff (glib : VariantLibrary) (order : ByteOrder) :
    (∀ (cache : EmerPersistentCache) (calls : List EmerPersistentCache.StoreCall),
      cache.Intact →
      EachStep (EmerPersistentCache.storeStep glib order) (EmerPersistentCache.Admits glib order)
        cache calls →
      (EachStep (EmerPersistentCache.storeStep glib order)
          (EmerPersistentCache.ExactlyOnce glib order) cache calls ↔
        EachStep (EmerPersistentCache.storeStep glib order)
          (EmerPersistentCache.StartsClean glib order) cache calls)) ∧
    ∀ (daemon : FlushingDaemon) (ops : List FlushingOp),
      daemon.persistentCache.Intact → daemon.accepted = [] →
      EachStep (FlushingDaemon.step glib order) (FlushingDaemon.Admits glib order) daemon ops →
      (Throughout (FlushingDaemon.step glib order)
          (FlushingDaemon.NoneTwice glib order (daemon.initially glib order)) daemon ops ↔
        EachStep (FlushingDaemon.step glib order) (FlushingDaemon.StartsClean glib order)
          daemon ops) := by
  refine ⟨fun cache calls h hcalls => EmerPersistentCache.eachStep_exactlyOnce_iff h hcalls,
    fun daemon ops h haccepted hops => FlushingDaemon.throughout_noneTwice_iff h hops ?_⟩
  rw [FlushingDaemon.NoneTwice, haccepted, List.map_nil, List.append_nil]
  rfl

/-- A cache of 64 bytes over an empty data file. -/
def smallCache : EmerPersistentCache :=
  ⟨⟨⟨some [], .absent⟩, KeyFile.empty, [], 64, 0, 0⟩⟩

def plainVariants : VariantLibrary := ⟨id, id, fun _ => true, fun _ => true⟩

/-- A store that cannot write the metadata, and the daemon's retry of the same event. -/
def retriedStore : List EmerPersistentCache.StoreCall :=
  [⟨[⟨[121], [7]⟩], .metadata⟩, ⟨[⟨[121], [7]⟩], .none⟩]

/-- The daemon over that cache. -/
def smallDaemon : FlushingDaemon :=
  { persistentCache := smallCache, buffer := ⟨[], 0, 100000, false⟩, recordingEnabled := true
    accepted := [] }

def retriedFlush : List FlushingOp :=
  [.record ⟨[121], [7]⟩, .flush .metadata, .flush .none]

theorem exactlyOnce_across_failures_iff_retried :
    (EachStep (EmerPersistentCache.storeStep plainVariants .little)
        (EmerPersistentCache.ExactlyOnce plainVariants .little) smallCache retriedStore ↔
      EachStep (EmerPersistentCache.storeStep plainVariants .little)
        (EmerPersistentCache.StartsClean plainVariants .little) smallCache retriedStore) ∧
    (Throughout (FlushingDaemon.step plainVariants .little)
        (FlushingDaemon.NoneTwice plainVariants .little
          (smallDaemon.initially plainVariants .little)) smallDaemon retriedFlush ↔
      EachStep (FlushingDaemon.step plainVariants .little)
        (FlushingDaemon.StartsClean plainVariants .little) smallDaemon retriedFlush) := by
  have hintact : smallCache.Intact :=
    ⟨[], Fifo.empty, holds_empty (by decide) (by decide) (by decide)⟩
  exact ⟨(exactlyOnce_across_failures_iff plainVariants .little).1 smallCache retriedStore hintact
      (by decide),
    (exactlyOnce_across_failures_iff plainVariants .little).2 smallDaemon retriedFlush hintact rfl
      (by decide)⟩

/-- The retry stores the event twice, for the daemon's own flushes as well. -/
theorem retriedStore_twice :
    ¬ EachStep (EmerPersistentCache.storeStep plainVariants .little)
        (EmerPersistentCache.ExactlyOnce plainVariants .little) smallCache retriedStore ∧
      ¬ Throughout (FlushingDaemon.step plainVariants .little)
        (FlushingDaemon.NoneTwice plainVariants .little
          (smallDaemon.initially plainVariants .little)) smallDaemon retriedFlush := by
  refine ⟨by decide, fun h => ?_⟩
  have hlast : _ = _ := h.last
  revert hlast
  decide

end EventRecorder
