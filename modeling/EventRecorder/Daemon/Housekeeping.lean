import EventRecorder.Daemon.Basic
import EventRecorder.Theory.Run

/-!
# Housekeeping

Around the upload itself the daemon flushes its buffer, reads its configuration again, returns
tasks and starts reachability checks, in many orders.  These small steps leave the upload that is
in flight alone, so that an invariant has to be checked against each of them only once.
-/

namespace EventRecorder

open Theory

namespace EmerDaemon

variable {κ ε : Type*} {parts : DaemonParts κ ε} {self next : EmerDaemon κ ε}

/-! ## 1. The parts of a step -/

variable (parts) in
/-- A flush does nothing, fails to store, or moves some events from the front of the buffer. -/
theorem flushToPersistentCache_cases (self : EmerDaemon κ ε) :
    self.flushToPersistentCache parts = self ∨
      let stored := parts.cache.store self.persistentCache self.buffer.variantArray
      (stored.1 = none ∧
        self.flushToPersistentCache parts = { self with persistentCache := stored.2 }) ∨
      ∃ numEvents buffer, stored.1 = some numEvents ∧
        self.buffer.removeEvents parts.cost numEvents = some buffer ∧
        self.flushToPersistentCache parts =
          { self with persistentCache := stored.2, buffer := buffer } := by
  unfold flushToPersistentCache EventBuffer.flushToPersistentCache
  by_cases hrecording : self.recordingEnabled
  · by_cases hempty : self.buffer.variantArray.length = 0
    · left
      rw [if_neg (by simpa using hrecording), if_pos hempty]
    · right
      rw [if_neg (by simpa using hrecording), if_neg hempty]
      cases hstored : parts.cache.store self.persistentCache self.buffer.variantArray with
      | mk answer cache =>
        cases answer with
        | none => exact .inl ⟨rfl, rfl⟩
        | some numEvents =>
          obtain ⟨buffer, hremove⟩ : ∃ buffer,
              self.buffer.removeEvents parts.cost numEvents = some buffer :=
            EventBuffer.removeEvents_isSome (parts.cache.store_le (by rw [hstored]))
          -- the cache never claims more events than it was given, so they can be removed
          refine .inr ⟨numEvents, buffer, rfl, hremove, ?_⟩
          simp [hremove]
  · left
    rw [if_pos (by simpa using hrecording)]

variable (parts) in
theorem flushToPersistentCache_eq (self : EmerDaemon κ ε) :
    ∃ cache buffer, self.flushToPersistentCache parts =
      { self with persistentCache := cache, buffer := buffer } := by
  rcases flushToPersistentCache_cases parts self with h | ⟨-, h⟩ | ⟨_, buffer, -, -, h⟩
  · exact ⟨self.persistentCache, self.buffer, h⟩
  · exact ⟨_, self.buffer, h⟩
  · exact ⟨_, buffer, h⟩

variable (parts) in
theorem bufferEvent_eq (self : EmerDaemon κ ε) (event : ε) :
    self.bufferEvent parts event =
      { self with
        buffer := self.buffer.bufferEvent parts.cost event
        trace := self.trace ++
          if self.buffer.accepts parts.cost event then [.accepted event] else [] } := by
  unfold bufferEvent
  by_cases haccepts : self.buffer.accepts parts.cost event
  · simp [haccepts, log]
  · simp [haccepts]

theorem removeEvents_of_some {numEvents : Nat} {buffer : EventBuffer ε}
    (h : self.buffer.removeEvents parts.cost numEvents = some buffer) :
    self.removeEvents parts numEvents = .ok { self with buffer := buffer } := by
  rw [removeEvents, h]

theorem removeEvents_eq_ok {numEvents : Nat} (h : self.removeEvents parts numEvents = .ok next) :
    ∃ buffer, self.buffer.removeEvents parts.cost numEvents = some buffer ∧
      next = { self with buffer := buffer } := by
  unfold removeEvents at h
  split at h
  · rename_i buffer hremove
    cases h
    exact ⟨buffer, hremove, rfl⟩
  · cases h

theorem removeEvents_eq_error {numEvents : Nat} {abort : Abort × EmerDaemon κ ε}
    (h : self.removeEvents parts numEvents = .error abort) :
    abort = (.removedPastEnd, self) ∧ self.buffer.removeEvents parts.cost numEvents = none := by
  unfold removeEvents at h
  split at h
  · cases h
  · rename_i hremove
    cases h
    exact ⟨rfl, hremove⟩

variable (parts) in
/-- Stored events are read, or the read fails and an invalid cache is cleared. -/
theorem addStoredEvents_cases (self : EmerDaemon κ ε) (maxBytes : Nat) :
    let read := parts.cache.read self.persistentCache maxBytes
    (∃ variants token, read.1 = .ok (variants, token) ∧
      self.addStoredEvents parts maxBytes =
        (variants, token, !parts.cache.hasMore read.2 token,
          { self with persistentCache := read.2 })) ∨
    ∃ error cache, read.1 = .error error ∧
      (cache = read.2 ∨ cache = (parts.cache.removeAll read.2).2) ∧
      self.addStoredEvents parts maxBytes =
        ([], 0, true, { self with persistentCache := cache }) := by
  unfold addStoredEvents
  cases hread : parts.cache.read self.persistentCache maxBytes with
  | mk answer cache =>
    cases answer with
    | ok answer =>
      left
      exact ⟨answer.1, answer.2, rfl, rfl⟩
    | error error =>
      right
      -- only invalid data makes the daemon clear the cache
      cases error with
      | invalidData message => exact ⟨_, _, rfl, .inr rfl, rfl⟩
      | _ => exact ⟨_, cache, rfl, .inl rfl, rfl⟩

theorem createRequestBody_snd (self : EmerDaemon κ ε) (uploadTask : UploadTask ε)
    (timestamps : Bool) :
    (self.createRequestBody parts uploadTask timestamps).2 =
      (self.addStoredEvents parts uploadTask.maxUploadSize).2.2.2 := by
  cases timestamps <;> rfl

variable (parts) in
/-- Putting a request together changes nothing but the cache. -/
theorem createRequestBody_eq (self : EmerDaemon κ ε) (uploadTask : UploadTask ε)
    (timestamps : Bool) :
    ∃ cache, (self.createRequestBody parts uploadTask timestamps).2 =
      { self with persistentCache := cache } := by
  rw [createRequestBody_snd]
  rcases addStoredEvents_cases parts self uploadTask.maxUploadSize with
    ⟨variants, token, -, h⟩ | ⟨error, cache, -, -, h⟩
  · exact ⟨_, congrArg (fun added => added.2.2.2) h⟩
  · exact ⟨cache, congrArg (fun added => added.2.2.2) h⟩

/-- A request holds the events read from the cache and then, when these are all, events from the
front of the buffer. -/
theorem createRequestBody_eq_some {uploadTask request : UploadTask ε} {timestamps : Bool}
    (h : (self.createRequestBody parts uploadTask timestamps).1 = some request) :
    let added := self.addStoredEvents parts uploadTask.maxUploadSize
    ∃ buffered, buffered <+: self.buffer.variantArray ∧ (buffered ≠ [] → added.2.2.1 = true) ∧
      request = { uploadTask with
        requestBody := added.1 ++ buffered, token := added.2.1,
        numStoredEvents := added.1.length, numBufferEvents := buffered.length,
        attemptNum := 0 } := by
  have hbuffer : (self.addStoredEvents parts uploadTask.maxUploadSize).2.2.2.buffer =
      self.buffer := by
    rcases addStoredEvents_cases parts self uploadTask.maxUploadSize with
      ⟨variants, token, -, h⟩ | ⟨error, cache, -, -, h⟩
    · rw [h]
    · rw [h]
  unfold createRequestBody at h
  generalize self.addStoredEvents parts uploadTask.maxUploadSize = added at h hbuffer ⊢
  obtain ⟨stored, token, addFromBuffer, next⟩ := added
  cases timestamps with
  | false => cases h
  | true =>
    refine ⟨_, ?_, ?_, (Option.some.inj h).symm⟩
    · dsimp only at hbuffer
      rw [hbuffer]
      split
      · exact takeWithin_isPrefix _ _ _
      · exact List.nil_prefix
    -- the buffer is looked at only when the cache has no more
    · intro hbuffered
      by_contra hmore
      exact hbuffered (if_neg hmore)

/-- What is left of the buffer when all of it is removed. -/
def emptied (parts : DaemonParts κ ε) (buffer : EventBuffer ε) : EventBuffer ε :=
  (buffer.removeEvents parts.cost buffer.variantArray.length).getD buffer

@[simp] theorem variantArray_emptied (buffer : EventBuffer ε) :
    (emptied parts buffer).variantArray = [] := by
  obtain ⟨buffer', hremove⟩ : ∃ buffer',
      buffer.removeEvents parts.cost buffer.variantArray.length = some buffer' :=
    EventBuffer.removeEvents_isSome (le_refl _)
  rw [emptied, hremove, Option.getD_some, (EventBuffer.removeEvents_eq_some hremove).2,
    List.drop_length]

variable (parts) in
/-- A new state of the provider is taken over, with or without a notification, or it is an
opt-out. -/
theorem withProvider_cases (self : EmerDaemon κ ε) (provider : EmerPermissionsProvider)
    (notified : List ProviderProperty) :
    (∃ recording, (recording = true ∨
        ProviderProperty.daemonEnabled ∉ notified ∧ recording = self.recordingEnabled) ∧
      self.withProvider parts provider notified =
        { self with permissionsProvider := provider, recordingEnabled := recording }) ∨
    self.withProvider parts provider notified =
      { self with
        permissionsProvider := provider
        recordingEnabled := false
        buffer := emptied parts self.buffer
        persistentCache := (parts.cache.removeAll self.persistentCache).2
        cancelledUploads := self.currentUpload.toList ++ self.cancelledUploads
        trace := self.trace ++ [.optedOut] } := by
  unfold withProvider onPermissionsChanged
  -- a notification with daemon-enabled off is the one case that discards anything
  by_cases hnotified : ProviderProperty.daemonEnabled ∈ notified
  · by_cases henabled : provider.getDaemonEnabled
    · left
      exact ⟨true, .inl rfl, by simp [hnotified, henabled]⟩
    · right
      cases hcurrent : self.currentUpload with
      | none => simp [hnotified, henabled, cancelCurrentUpload, log, emptied]
      | some taskId => simp [hnotified, henabled, cancelCurrentUpload, log, emptied]
  · left
    exact ⟨self.recordingEnabled, .inr ⟨hnotified, rfl⟩, by simp [hnotified]⟩

/-! ## 2. The relation -/

/-- `mayFlush` is what must be known for the buffer to be flushed. -/
inductive Housekeeping (parts : DaemonParts κ ε) (mayFlush : Prop) :
    EmerDaemon κ ε → EmerDaemon κ ε → Prop where
  | flush (self : EmerDaemon κ ε) (h : mayFlush) :
      Housekeeping parts mayFlush self (self.flushToPersistentCache parts)
  | provider (self : EmerDaemon κ ε) (provider : EmerPermissionsProvider)
      (notified : List ProviderProperty) :
      Housekeeping parts mayFlush self (self.withProvider parts provider notified)
  | returned (self : EmerDaemon κ ε) (taskId : Nat) (result : UploadResult) :
      Housekeeping parts mayFlush self (self.log (.returned taskId result))
  | dequeued (self : EmerDaemon κ ε) (rest : List (UploadTask ε)) :
      Housekeeping parts mayFlush self { self with uploadQueue := rest }
  | check (self : EmerDaemon κ ε) :
      Housekeeping parts mayFlush self
        { self with outstandingChecks := self.outstandingChecks + 1 }

abbrev Housekept (parts : DaemonParts κ ε) (mayFlush : Prop) :
    EmerDaemon κ ε → EmerDaemon κ ε → Prop :=
  Relation.ReflTransGen (Housekeeping parts mayFlush)

/-- **Invariant rule.** -/
theorem Housekept.keeps {mayFlush : Prop} {I : EmerDaemon κ ε → Prop}
    (hstep : ∀ {self next}, Housekeeping parts mayFlush self next → I self → I next)
    (h : Housekept parts mayFlush self next) (hI : I self) : I next := by
  induction h with
  | refl => exact hI
  | tail _ hlast ih => exact hstep hlast ih

theorem Housekept.mono {mayFlush mayFlush' : Prop} (himp : mayFlush → mayFlush')
    (h : Housekept parts mayFlush self next) : Housekept parts mayFlush' self next := by
  refine Relation.ReflTransGen.mono (fun self next hstep => ?_) _ _ h
  cases hstep with
  | flush h => exact .flush self (himp h)
  | provider provider notified => exact .provider self provider notified
  | returned taskId result => exact .returned self taskId result
  | dequeued rest => exact .dequeued self rest
  | check => exact .check self

/-! ## 3. What is housekeeping -/

theorem withProvider_housekept (mayFlush : Prop) (self : EmerDaemon κ ε)
    (provider : EmerPermissionsProvider) (notified : List ProviderProperty) :
    Housekept parts mayFlush self (self.withProvider parts provider notified) :=
  .single (.provider self provider notified)

variable (parts) in
theorem getServerUrl_housekept (mayFlush : Prop) (self : EmerDaemon κ ε) :
    Housekept parts mayFlush self (self.getServerUrl parts).2 :=
  .single (.provider self _ _)

variable (parts) in
theorem getEnvironment_housekept (mayFlush : Prop) (self : EmerDaemon κ ε) :
    Housekept parts mayFlush self (self.getEnvironment parts) :=
  .single (.provider self _ _)

/-- Whether uploads are permitted. -/
def Permits (self : EmerDaemon κ ε) : Prop :=
  self.recordingEnabled = true ∧ self.permissionsProvider.getUploadingEnabled = true

instance (self : EmerDaemon κ ε) : Decidable self.Permits :=
  inferInstanceAs (Decidable (_ ∧ _))

/-- Whether a task that is dequeued makes the daemon flush its buffer. -/
def FlushesWhenDequeued (self : EmerDaemon κ ε) : Prop :=
  self.recordingEnabled = true ∧ self.permissionsProvider.getUploadingEnabled = false

instance (self : EmerDaemon κ ε) : Decidable self.FlushesWhenDequeued :=
  inferInstanceAs (Decidable (_ ∧ _))

theorem uploadPermitted_of_permits (h : self.Permits) :
    self.uploadPermitted parts = (.ok (), self) := by
  simp [uploadPermitted, h.1, h.2]

variable (parts) in
/-- A refusal may flush the buffer, and leaves the permissions as they are. -/
theorem uploadPermitted_of_not_permits (h : ¬ self.Permits) :
    ∃ result refused, self.uploadPermitted parts = (.error result, refused) ∧
      refused.uploadQueue = self.uploadQueue ∧
      refused.outstandingChecks = self.outstandingChecks ∧
      refused.recordingEnabled = self.recordingEnabled ∧
      refused.permissionsProvider = self.permissionsProvider ∧
      Housekept parts self.FlushesWhenDequeued self refused := by
  unfold uploadPermitted
  -- recording is tested first, and only the test of uploading flushes
  cases hrecording : self.recordingEnabled with
  | false => exact ⟨_, _, rfl, rfl, rfl, hrecording, rfl, .refl⟩
  | true =>
    cases huploading : self.permissionsProvider.getUploadingEnabled with
    | true => exact absurd ⟨hrecording, huploading⟩ h
    | false =>
      obtain ⟨cache, buffer, hflush⟩ := flushToPersistentCache_eq parts self
      refine ⟨_, _, rfl, ?_, ?_, ?_, ?_, .single (.flush self ⟨hrecording, huploading⟩)⟩
      · rw [hflush]
      · rw [hflush]
      · rw [hflush]
        exact hrecording
      · rw [hflush]

theorem dequeueFrom_of_permits (h : self.Permits) (queue : List (UploadTask ε)) :
    dequeueFrom parts queue self = (self.getPingSocket parts).map fun self =>
      { self with outstandingChecks := self.outstandingChecks + 1 } := by
  cases queue <;> rw [dequeueFrom, uploadPermitted_of_permits h]

variable (parts) in
/-- When uploads are not permitted the whole queue is returned. -/
theorem dequeueFrom_of_not_permits {self : EmerDaemon κ ε} {queue : List (UploadTask ε)}
    (h : ¬ self.Permits) (hqueue : self.uploadQueue = queue) :
    ∃ drained, dequeueFrom parts queue self = .ok drained ∧ drained.uploadQueue = [] ∧
      drained.outstandingChecks = self.outstandingChecks ∧
      Housekept parts self.FlushesWhenDequeued self drained := by
  induction queue generalizing self with
  | nil =>
    obtain ⟨result, refused, hrefused, hq, hchecks, -, -, hkept⟩ :=
      uploadPermitted_of_not_permits parts h
    rw [dequeueFrom, hrefused]
    exact ⟨refused, rfl, hq.trans hqueue, hchecks, hkept⟩
  | cons uploadTask rest ih =>
    obtain ⟨result, refused, hrefused, hq, hchecks, hrecording, hprovider, hkept⟩ :=
      uploadPermitted_of_not_permits parts h
    let returned := { refused with uploadQueue := rest }.log (.returned uploadTask.taskId result)
    have hreturned : Housekept parts self.FlushesWhenDequeued self returned :=
      (hkept.tail (.dequeued refused rest)).tail (.returned _ uploadTask.taskId result)
    -- the permissions are the same for the rest of the queue
    have hflushes : returned.FlushesWhenDequeued = self.FlushesWhenDequeued := by
      show (refused.recordingEnabled = true ∧
        refused.permissionsProvider.getUploadingEnabled = false) = _
      rw [hrecording, hprovider]
      rfl
    have hpermits : ¬ returned.Permits := by
      show ¬ (refused.recordingEnabled = true ∧
        refused.permissionsProvider.getUploadingEnabled = true)
      rw [hrecording, hprovider]
      exact h
    rw [dequeueFrom, hrefused]
    cases rest with
    | nil => exact ⟨returned, rfl, rfl, hchecks, hreturned⟩
    | cons nextTask tasks =>
      obtain ⟨drained, hdrained, hempty, hsame, hrest⟩ := ih hpermits rfl
      rw [hflushes] at hrest
      exact ⟨drained, hdrained, hempty, hsame.trans hchecks, hreturned.trans hrest⟩

variable (parts) in
theorem getPingSocket_housekept (mayFlush : Prop) (self : EmerDaemon κ ε) :
    Housekept parts mayFlush self (ofOutcome (self.getPingSocket parts)) := by
  unfold getPingSocket
  dsimp only
  split <;> exact getServerUrl_housekept parts mayFlush self

variable (parts) in
theorem dequeueAndDoUpload_housekept (self : EmerDaemon κ ε) :
    Housekept parts self.FlushesWhenDequeued self (ofOutcome (self.dequeueAndDoUpload parts)) := by
  by_cases h : self.Permits
  · have hping := getPingSocket_housekept parts self.FlushesWhenDequeued self
    rw [dequeueAndDoUpload, dequeueFrom_of_permits h]
    cases hsocket : self.getPingSocket parts with
    | error abort =>
      rw [hsocket] at hping
      exact hping
    | ok pinged =>
      rw [hsocket] at hping
      exact hping.tail (.check pinged)
  · obtain ⟨drained, hdrained, -, -, hkept⟩ :=
      dequeueFrom_of_not_permits parts h rfl
    rw [dequeueAndDoUpload, hdrained]
    exact hkept

theorem handleUploadFinished_housekept (self : EmerDaemon κ ε) :
    Housekept parts self.FlushesWhenDequeued self
      (ofOutcome (self.handleUploadFinished parts)) := by
  unfold handleUploadFinished
  split
  · exact .refl
  · exact dequeueAndDoUpload_housekept parts self

/-- What recording one event keeps, recording several keeps. -/
theorem foldl_recordEvent_keeps {I : EmerDaemon κ ε → Prop}
    (hrecord : ∀ self event, I self → I (self.recordEvent parts event)) (events : List ε)
    (hI : I self) : I (events.foldl (fun self event => self.recordEvent parts event) self) := by
  induction events generalizing self with
  | nil => exact hI
  | cons event events ih => exact ih (hrecord self event hI)

/-- **Invariant rule** for the daemon as it is constructed. -/
theorem new_keeps {I : EmerDaemon κ ε → Prop} {permissionsProvider : EmerPermissionsProvider}
    {persistentCache : κ} {maxBytesBuffered : Nat}
    (hinitial : I (initial permissionsProvider persistentCache maxBytesBuffered))
    (hrecord : ∀ self event, I self → I (self.recordEvent parts event))
    (hprovider : ∀ self provider notified, I self →
      I (self.withProvider parts provider notified))
    (pastEvents : List ε) :
    I (new parts permissionsProvider persistentCache maxBytesBuffered pastEvents) :=
  hprovider _ _ _ (foldl_recordEvent_keeps hrecord pastEvents hinitial)

end EmerDaemon

end EventRecorder
