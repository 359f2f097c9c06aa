import Mathlib

/-!
# The event buffer of the daemon

Events wait in memory until they are uploaded or flushed to the persistent cache.  The buffer is
bounded in bytes; what an event costs and how the cache stores events are parameters.
-/

namespace EventRecorder

def maxRequestPayload : Nat := 100000

structure EventBuffer (ε : Type*) where
  variantArray : List ε
  numBytesBuffered : Nat
  maxBytesBuffered : Nat
  haveLoggedOverflow : Bool
  deriving DecidableEq, Repr

namespace EventBuffer

variable {ε κ : Type*} (cost : ε → Nat)

/-- Whether `buffer_event` keeps the event. -/
def accepts (self : EventBuffer ε) (event : ε) : Prop :=
  cost event ≤ maxRequestPayload ∧
    (self.numBytesBuffered + cost event) % 2 ^ 64 ≤ self.maxBytesBuffered

instance (self : EventBuffer ε) (event : ε) : Decidable (self.accepts cost event) :=
  inferInstanceAs (Decidable (_ ∧ _))

def bufferEvent (self : EventBuffer ε) (event : ε) : EventBuffer ε :=
  let newBytesBuffered := (self.numBytesBuffered + cost event) % 2 ^ 64
  if cost event > maxRequestPayload ∨ newBytesBuffered > self.maxBytesBuffered then
    if cost event > maxRequestPayload then self
    -- the first overflow is logged, later ones are not
    else { self with haveLoggedOverflow := true }
  else
    { self with
      variantArray := self.variantArray ++ [event], numBytesBuffered := newBytesBuffered }

/-- Without a result when the loop would go past the end of the array. -/
def removeEvents (self : EventBuffer ε) (numEvents : Nat) : Option (EventBuffer ε) :=
  if numEvents ≤ self.variantArray.length then
    some { self with
      variantArray := self.variantArray.drop numEvents
      numBytesBuffered := (self.variantArray.take numEvents).foldl
        (fun bytes event => (bytes + (2 ^ 64 - cost event % 2 ^ 64)) % 2 ^ 64)
        self.numBytesBuffered }
  else none

/-- `flush_to_persistent_cache` over a cache whose `store` answers the number of events stored, or
nothing when it fails. -/
def flushToPersistentCache (store : κ → List ε → Option Nat × κ) (recordingEnabled : Bool)
    (cache : κ) (self : EventBuffer ε) : Option (κ × EventBuffer ε) :=
  if !recordingEnabled then some (cache, self)
  else if self.variantArray.length = 0 then some (cache, self)
  else
    match store cache self.variantArray with
    -- a failure keeps all events for the next flush
    | (none, cache) => some (cache, self)
    | (some numEventsStored, cache) =>
      (self.removeEvents cost numEventsStored).map fun buffer => (cache, buffer)

variable {cost}

theorem variantArray_bufferEvent (self : EventBuffer ε) (event : ε) :
    (self.bufferEvent cost event).variantArray =
      if self.accepts cost event then self.variantArray ++ [event] else self.variantArray := by
  -- the two tests of the code are those of `accepts`
  by_cases haccepts : self.accepts cost event
  · rw [if_pos haccepts, bufferEvent]
    obtain ⟨hsmall, hroom⟩ := haccepts
    rw [if_neg (by omega)]
  · rw [if_neg haccepts, bufferEvent]
    rw [accepts] at haccepts
    rw [if_pos (by omega)]
    split <;> rfl

theorem removeEvents_eq_some {self buffer : EventBuffer ε} {numEvents : Nat}
    (h : self.removeEvents cost numEvents = some buffer) :
    numEvents ≤ self.variantArray.length ∧
      buffer.variantArray = self.variantArray.drop numEvents := by
  unfold removeEvents at h
  split at h
  · rename_i hle
    cases h
    exact ⟨hle, rfl⟩
  · cases h

theorem removeEvents_isSome {self : EventBuffer ε} {numEvents : Nat}
    (h : numEvents ≤ self.variantArray.length) :
    ∃ buffer, self.removeEvents cost numEvents = some buffer := by
  rw [removeEvents, if_pos h]
  exact ⟨_, rfl⟩

/-! ## The byte count -/

/-- The count is the cost of the events in the array, as far as 64 bits go. -/
def Counted (cost : ε → Nat) (self : EventBuffer ε) : Prop :=
  self.numBytesBuffered = (self.variantArray.map cost).sum % 2 ^ 64

theorem Counted.bufferEvent {self : EventBuffer ε} (h : self.Counted cost) (event : ε) :
    (self.bufferEvent cost event).Counted cost := by
  unfold Counted at h
  by_cases haccepts : self.accepts cost event
  · rw [EventBuffer.bufferEvent]
    obtain ⟨hsmall, hroom⟩ := haccepts
    rw [if_neg (by omega)]
    show (self.numBytesBuffered + cost event) % 2 ^ 64 =
      ((self.variantArray ++ [event]).map cost).sum % 2 ^ 64
    rw [List.map_append, List.sum_append, h]
    simp
  · rw [EventBuffer.bufferEvent]
    rw [accepts] at haccepts
    rw [if_pos (by omega)]
    split
    · exact h
    · exact h

theorem foldl_subtract (cost : ε → Nat) (removed : List ε) (rest : Nat) :
    removed.foldl (fun bytes event => (bytes + (2 ^ 64 - cost event % 2 ^ 64)) % 2 ^ 64)
      (((removed.map cost).sum + rest) % 2 ^ 64) = rest % 2 ^ 64 := by
  induction removed with
  | nil => simp
  | cons event removed ih =>
    rw [List.foldl_cons, List.map_cons, List.sum_cons, ← ih]
    congr 1
    omega

theorem Counted.removeEvents {self buffer : EventBuffer ε} (h : self.Counted cost)
    {numEvents : Nat} (hremove : self.removeEvents cost numEvents = some buffer) :
    buffer.Counted cost := by
  unfold EventBuffer.removeEvents at hremove
  split at hremove
  · cases hremove
    unfold Counted at h ⊢
    -- the events removed and those that stay make up the array
    have hsplit : (self.variantArray.map cost).sum =
        ((self.variantArray.take numEvents).map cost).sum +
          ((self.variantArray.drop numEvents).map cost).sum := by
      rw [← List.sum_append, ← List.map_append, List.take_append_drop]
    show List.foldl _ self.numBytesBuffered _ = _
    rw [h, hsplit, foldl_subtract]
  · cases hremove

theorem Counted.numBytesBuffered_eq_zero {self : EventBuffer ε} (h : self.Counted cost)
    (hempty : self.variantArray = []) : self.numBytesBuffered = 0 := by
  rw [h, hempty]
  rfl

end EventBuffer

end EventRecorder
