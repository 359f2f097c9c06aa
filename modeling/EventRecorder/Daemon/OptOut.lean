import EventRecorder.Daemon.UploadInFlight
import EventRecorder.Daemon.Wedged
import EventRecorder.Theory.Trace

/-!
# Opting out

An opt-out empties the buffer and the cache and cancels the upload in flight.  What was recorded
before is then nowhere but in the request of that upload, which is dropped when its response
arrives.  But a timer that waits to send it again does not look at the cancellable, and what a
failed store has left in the write buffer of the circular file outlives the opt-out.
-/

namespace EventRecorder

open Theory

namespace EmerDaemon

variable {κ ε : Type*} {parts : DaemonParts κ ε} {Within : κ → (ε → Prop) → Prop}
  {Denotes : κ → Nat → Prop} {self next : EmerDaemon κ ε}

/-- Every request holds accepted events only. -/
def RequestsHoldAccepted (trace : List (Action ε)) : Prop :=
  ∀ taskId body recordingEnabled uploadingEnabled,
    .queueHttpRequest taskId body recordingEnabled uploadingEnabled ∈ trace →
      ∀ event ∈ body, .accepted event ∈ trace

/-- No request that enters `queue_http_request` after an opt-out holds an event from before it. -/
def NothingSentAfterOptOut (trace : List (Action ε)) : Prop :=
  AfterEach .optedOut RequestsHoldAccepted trace

/-- The event was accepted after every opt-out so far. -/
def AcceptedSince (trace : List (Action ε)) (event : ε) : Prop :=
  AfterEach .optedOut (fun after => .accepted event ∈ after) trace

/-- The timer of a cancelled upload that has events to send does not go off. -/
def LiveBackoff (self : EmerDaemon κ ε) : DaemonEvent ε → Prop
  | .backoffTimer taskId fault =>
    ∀ uploadTask ∈ self.awaitingBackoff.find? (·.taskId = taskId),
      fault ≠ .timestamps → uploadTask.requestBody ≠ [] →
        uploadTask.taskId ∉ self.cancelledUploads
  | _ => True

instance (self : EmerDaemon κ ε) (event : DaemonEvent ε) :
    Decidable (self.LiveBackoff event) :=
  match event with
  | .backoffTimer .. => inferInstanceAs (Decidable (∀ uploadTask ∈ _, _))
  | .recordEvent .. | .uploadEvents | .uploadTimer | .canReach .. | .httpResponse ..
  | .setDaemonEnabled .. | .setUploadingEnabled .. | .writeConfigFileIdle ..
  | .configFileEdited .. => isTrue trivial

/-! ## 1. Growing traces -/

theorem AcceptedSince.snoc {trace : List (Action ε)} {event : ε} {action : Action ε}
    (h : AcceptedSince trace event) (hne : action ≠ .optedOut) :
    AcceptedSince (trace ++ [action]) event :=
  AfterEach.snoc h hne fun _ hmem => List.mem_append_left _ hmem

theorem acceptedSince_accepted (trace : List (Action ε)) (event : ε) :
    AcceptedSince (trace ++ [.accepted event]) event := by
  intro before after hsplit
  rcases split_snoc hsplit with ⟨-, heq⟩ | ⟨earlier, rfl, -⟩
  · cases heq
  · exact List.mem_append_right earlier List.mem_cons_self

/-- A request that holds events accepted since the last opt-out, or an action that is no request. -/
theorem NothingSentAfterOptOut.snoc {trace : List (Action ε)} {action : Action ε}
    (h : NothingSentAfterOptOut trace) (hne : action ≠ .optedOut)
    (hbody : ∀ taskId body recordingEnabled uploadingEnabled,
      action = .queueHttpRequest taskId body recordingEnabled uploadingEnabled →
        ∀ event ∈ body, AcceptedSince trace event) :
    NothingSentAfterOptOut (trace ++ [action]) := by
  intro before after hsplit taskId body recordingEnabled uploadingEnabled hmem event hevent
  rcases split_snoc hsplit with ⟨-, heq⟩ | ⟨earlier, rfl, htrace⟩
  · exact absurd heq hne
  · apply List.mem_append_left
    -- an earlier request, or the action itself
    rcases List.mem_append.mp hmem with hmem | hmem
    · exact h before earlier htrace taskId body _ _ hmem event hevent
    · exact hbody taskId body _ _ (List.mem_singleton.mp hmem).symm event hevent before earlier
        htrace

theorem NothingSentAfterOptOut.optOut {trace : List (Action ε)}
    (h : NothingSentAfterOptOut trace) : NothingSentAfterOptOut (trace ++ [.optedOut]) := by
  apply AfterEach.snoc_mark (P := RequestsHoldAccepted) (Q := RequestsHoldAccepted) h
  -- nothing has been sent after this opt-out yet
  · intro taskId body recordingEnabled uploadingEnabled hmem
    cases hmem
  · intro after hafter taskId body recordingEnabled uploadingEnabled hmem event hevent
    apply List.mem_append_left
    rcases List.mem_append.mp hmem with hmem | hmem
    · exact hafter taskId body _ _ hmem event hevent
    · cases List.mem_singleton.mp hmem

/-! ## 2. The invariant -/

/-- What the daemon may still send was accepted since the last opt-out. -/
structure Discreet (Within : κ → (ε → Prop) → Prop) (Denotes : κ → Nat → Prop)
    (upload : Option (UploadTask ε)) (daemon : EmerDaemon κ ε) : Prop where
  sent : NothingSentAfterOptOut daemon.trace
  buffered : ∀ event ∈ daemon.buffer.variantArray, AcceptedSince daemon.trace event
  cached : Within daemon.persistentCache (AcceptedSince daemon.trace)
  current : ∀ uploadTask ∈ upload, daemon.currentUpload = some uploadTask.taskId
  live : ∀ uploadTask ∈ upload, uploadTask.taskId ∉ daemon.cancelledUploads →
    Denotes daemon.persistentCache uploadTask.token ∧
      ∀ event ∈ uploadTask.requestBody, AcceptedSince daemon.trace event

namespace Discreet

variable {upload : Option (UploadTask ε)}

theorem same (h : Discreet Within Denotes upload self) (hsame : SameContents self next) :
    Discreet Within Denotes upload next := by
  refine ⟨?_, ?_, ?_, ?_, ?_⟩
  · rw [hsame.trace]
    exact h.sent
  · rw [hsame.trace, hsame.buffer]
    exact h.buffered
  · rw [hsame.trace, hsame.cache]
    exact h.cached
  · rw [hsame.current]
    exact h.current
  · rw [hsame.trace, hsame.cancelled, hsame.cache]
    exact h.live

theorem ended (h : Discreet Within Denotes upload self) : Discreet Within Denotes none self where
  sent := h.sent
  buffered := h.buffered
  cached := h.cached
  current := by simp
  live := by simp

variable (hcache : ConfinedCache parts.cache Within Denotes)

include hcache

/-- An action that is no opt-out, and not a request unless its events may be sent. -/
theorem log (h : Discreet Within Denotes upload self) (action : Action ε)
    (hne : action ≠ .optedOut)
    (hbody : ∀ taskId body recordingEnabled uploadingEnabled,
      action = .queueHttpRequest taskId body recordingEnabled uploadingEnabled →
        ∀ event ∈ body, AcceptedSince self.trace event) :
    Discreet Within Denotes upload (self.log action) where
  sent := h.sent.snoc hne hbody
  buffered := fun event hevent => (h.buffered event hevent).snoc hne
  cached := hcache.mono h.cached fun _ hevent => hevent.snoc hne
  current := h.current
  live := fun uploadTask hmem hlive =>
    have ⟨hdenotes, hevents⟩ := h.live uploadTask hmem hlive
    ⟨hdenotes, fun event hevent => (hevents event hevent).snoc hne⟩

theorem returned (h : Discreet Within Denotes upload self) (taskId : Nat)
    (result : UploadResult) :
    Discreet Within Denotes upload (self.log (.returned taskId result)) := by
  apply h.log hcache
  · exact fun heq => by cases heq
  · exact fun _ _ _ _ heq => by cases heq

theorem entered (h : Discreet Within Denotes upload self) (uploadTask : UploadTask ε)
    (hbody : ∀ event ∈ uploadTask.requestBody, AcceptedSince self.trace event) :
    Discreet Within Denotes upload (self.entered uploadTask) := by
  apply h.log hcache
  · exact fun heq => by cases heq
  · intro taskId body recordingEnabled uploadingEnabled heq
    cases heq
    exact hbody

theorem bufferEvent (h : Discreet Within Denotes upload self) (event : ε) :
    Discreet Within Denotes upload (self.bufferEvent parts event) := by
  by_cases haccepts : self.buffer.accepts parts.cost event
  · have hlog := h.log hcache (.accepted event) (fun heq => by cases heq)
      (fun _ _ _ _ heq => by cases heq)
    have heq : self.bufferEvent parts event =
        { self.log (.accepted event) with
          buffer := self.buffer.bufferEvent parts.cost event } := by
      rw [bufferEvent_eq, if_pos haccepts]
      rfl
    rw [heq]
    refine ⟨hlog.sent, ?_, hlog.cached, hlog.current, hlog.live⟩
    intro buffered hbuffered
    dsimp only at hbuffered
    rw [EventBuffer.variantArray_bufferEvent, if_pos haccepts] at hbuffered
    rcases List.mem_append.mp hbuffered with hbuffered | hbuffered
    · exact hlog.buffered buffered hbuffered
    · rw [List.mem_singleton.mp hbuffered]
      exact acceptedSince_accepted self.trace event
  · rw [bufferEvent_eq, if_neg haccepts, List.append_nil]
    refine ⟨h.sent, ?_, h.cached, h.current, h.live⟩
    dsimp only
    rw [EventBuffer.variantArray_bufferEvent, if_neg haccepts]
    exact h.buffered

theorem flush (h : Discreet Within Denotes upload self) :
    Discreet Within Denotes upload (self.flushToPersistentCache parts) := by
  have hstored := hcache.store h.cached h.buffered
  have hlive : ∀ uploadTask ∈ upload, uploadTask.taskId ∉ self.cancelledUploads →
      Denotes (parts.cache.store self.persistentCache self.buffer.variantArray).2
          uploadTask.token ∧
        ∀ event ∈ uploadTask.requestBody, AcceptedSince self.trace event := by
    intro uploadTask hmem hlive
    obtain ⟨hdenotes, hevents⟩ := h.live uploadTask hmem hlive
    exact ⟨hcache.tokenStored hdenotes, hevents⟩
  rcases flushToPersistentCache_cases parts self with hflush | ⟨hfailed, -⟩ |
      ⟨numEvents, buffer, -, hremove, hflush⟩
  · rwa [hflush]
  · exact absurd hfailed (hcache.storeSucceeds _ h.cached)
  · rw [hflush]
    refine ⟨h.sent, ?_, hstored, h.current, hlive⟩
    intro event hevent
    dsimp only at hevent
    rw [(EventBuffer.removeEvents_eq_some hremove).2] at hevent
    exact h.buffered event (List.mem_of_mem_drop hevent)

/-- A request is put together from the cache and the buffer. -/
theorem createRequestBody (h : Discreet Within Denotes none self) (uploadTask : UploadTask ε)
    (timestamps : Bool) :
    Discreet Within Denotes none (self.createRequestBody parts uploadTask timestamps).2 := by
  have hread := hcache.read uploadTask.maxUploadSize h.cached
  rw [createRequestBody_snd]
  rcases addStoredEvents_cases parts self uploadTask.maxUploadSize with
    ⟨variants, token, -, hadded⟩ | ⟨error, cache, -, hcleared, hadded⟩
  · rw [hadded]
    exact ⟨h.sent, h.buffered, hread, h.current, by simp⟩
  · rw [hadded]
    refine ⟨h.sent, h.buffered, ?_, h.current, by simp⟩
    rcases hcleared with rfl | rfl
    · exact hread
    · exact hcache.removeAll hread

theorem requestBody (h : Discreet Within Denotes none self) {uploadTask request : UploadTask ε}
    {timestamps : Bool}
    (hbody : (self.createRequestBody parts uploadTask timestamps).1 = some request) :
    Denotes (self.createRequestBody parts uploadTask timestamps).2.persistentCache
        request.token ∧
      ∀ event ∈ request.requestBody, AcceptedSince self.trace event := by
  have hread := hcache.read uploadTask.maxUploadSize h.cached
  obtain ⟨buffered, hfront, -, rfl⟩ := createRequestBody_eq_some hbody
  rw [createRequestBody_snd]
  rcases addStoredEvents_cases parts self uploadTask.maxUploadSize with
    ⟨variants, token, hok, hadded⟩ | ⟨error, cache, -, hcleared, hadded⟩
  · obtain ⟨hevents, hdenotes⟩ := hcache.eventsRead h.cached hok
    rw [hadded]
    refine ⟨hdenotes, ?_⟩
    intro event hevent
    -- the events come from the cache, or from the front of the buffer
    rcases List.mem_append.mp hevent with hevent | hevent
    · exact hevents event hevent
    · exact h.buffered event (hfront.subset hevent)
  · rw [hadded]
    refine ⟨?_, fun event hevent => h.buffered event (hfront.subset hevent)⟩
    rcases hcleared with rfl | rfl
    · exact hcache.zero hread
    · exact hcache.zero (hcache.removeAll hread)

/-- The events of an accepted upload are removed from the cache and the buffer. -/
theorem acknowledged {uploadTask : UploadTask ε} {outcome : Outcome κ ε}
    (h : Discreet Within Denotes (some uploadTask) self)
    (hlive : uploadTask.taskId ∉ self.cancelledUploads)
    (hremove : (self.acknowledged parts uploadTask).removeEvents parts uploadTask.numBufferEvents =
      outcome) : Discreet Within Denotes none (ofOutcome outcome) := by
  have hlog := h.ended.log hcache (.acknowledged uploadTask.requestBody)
    (fun heq => by cases heq) (fun _ _ _ _ heq => by cases heq)
  have hdenotes := (h.live uploadTask rfl hlive).1
  have hremoved : Discreet Within Denotes none (self.acknowledged parts uploadTask) :=
    ⟨hlog.sent, hlog.buffered, hcache.remove hlog.cached hdenotes, hlog.current, by simp⟩
  cases outcome with
  | error abort =>
    obtain ⟨rfl, -⟩ := removeEvents_eq_error hremove
    exact hremoved
  | ok next =>
    obtain ⟨buffer, hbuffer, rfl⟩ := removeEvents_eq_ok hremove
    refine ⟨hremoved.sent, ?_, hremoved.cached, hremoved.current, hremoved.live⟩
    intro event hevent
    dsimp only [ofOutcome] at hevent
    rw [(EventBuffer.removeEvents_eq_some hbuffer).2] at hevent
    exact hremoved.buffered event (List.mem_of_mem_drop hevent)

variable (hclears : ∀ cache, (parts.cache.removeAll cache).1 = .ok ())

include hclears

theorem withProvider (h : Discreet Within Denotes upload self) (provider : EmerPermissionsProvider)
    (notified : List ProviderProperty) :
    Discreet Within Denotes upload (self.withProvider parts provider notified) := by
  rcases self.withProvider_cases parts provider notified with ⟨recording, -, heq⟩ | heq
  · rw [heq]
    exact ⟨h.sent, h.buffered, h.cached, h.current, h.live⟩
  · rw [heq]
    have hcleared := hcache.removedAll (Q := AcceptedSince (self.trace ++ [.optedOut])) h.cached
      (hclears self.persistentCache)
    refine ⟨h.sent.optOut, ?_, hcleared, h.current, ?_⟩
    · intro event hevent
      dsimp only at hevent
      rw [variantArray_emptied] at hevent
      cases hevent
    · -- the upload in flight is the current one, which is cancelled now
      intro uploadTask hmem hlive
      apply absurd _ hlive
      dsimp only
      rw [h.current uploadTask hmem]
      exact List.mem_cons_self

theorem housekeeping {mayFlush : Prop} (hstep : Housekeeping parts mayFlush self next)
    (h : Discreet Within Denotes upload self) : Discreet Within Denotes upload next := by
  cases hstep with
  | flush => exact h.flush hcache
  | provider provider notified => exact h.withProvider hcache hclears provider notified
  | returned taskId result => exact h.returned hcache taskId result
  | dequeued rest => exact ⟨h.sent, h.buffered, h.cached, h.current, h.live⟩
  | check => exact ⟨h.sent, h.buffered, h.cached, h.current, h.live⟩

theorem dequeued (h : Discreet Within Denotes upload self) (maxUploadSize : Nat) :
    Discreet Within Denotes upload
      (ofOutcome ((self.enqueued maxUploadSize).dequeueAndDoUpload parts)) := by
  apply (dequeueAndDoUpload_housekept parts (self.enqueued maxUploadSize)).keeps
  · exact fun hstep => housekeeping hcache hclears hstep
  · exact h.same ⟨rfl, rfl, rfl, rfl, rfl, rfl, rfl⟩

end Discreet

theorem discreet_uploadInvariant (hcache : ConfinedCache parts.cache Within Denotes)
    (hclears : ∀ cache, (parts.cache.removeAll cache).1 = .ok ()) :
    UploadInvariant parts LiveBackoff (Discreet Within Denotes) where
  same := fun hsame h => h.same hsame
  current := fun h => h.current _ rfl
  recorded := fun h _ => h.bufferEvent hcache _
  housekeeping := fun hstep h => h.housekeeping hcache hclears hstep
  requested := fun _ h _ => h.dequeued hcache hclears gMaxsize
  timerFired := by
    intro upload self hupload h hok
    have hreloaded := h.withProvider hcache hclears self.permissionsProvider.getEnvironment.2.1
      self.permissionsProvider.getEnvironment.2.2
    exact hreloaded.dequeued hcache hclears maxRequestPayload
  notStarted := fun h => h.createRequestBody hcache _ _
  started := by
    intro self next uploadTask request h hbody
    have hbuilt := h.createRequestBody hcache uploadTask true
    have hsome : (self.createRequestBody parts uploadTask true).1 = some request := by rw [hbody]
    have hrequest := h.requestBody hcache hsome
    obtain ⟨cache, hnext⟩ := createRequestBody_eq parts self uploadTask true
    rw [hbody] at hbuilt hrequest hnext
    dsimp only at hbuilt hrequest hnext
    have htrace : next.trace = self.trace := by rw [hnext]
    rw [← htrace] at hrequest
    have hstarted : Discreet Within Denotes (some request)
        { next with currentUpload := some request.taskId } := by
      refine ⟨hbuilt.sent, hbuilt.buffered, hbuilt.cached, ?_, ?_⟩
      · intro uploadTask hmem
        rw [Option.mem_some.mp hmem]
      · intro uploadTask hmem _
        rw [← Option.mem_some.mp hmem]
        exact hrequest
    exact hstarted.entered hcache request hrequest.2
  retried := by
    intro uploadTask self attemptNum h
    refine ⟨h.sent, h.buffered, h.cached, ?_, ?_⟩
    · intro retried hmem
      rw [← Option.mem_some.mp hmem]
      exact h.current uploadTask rfl
    · intro retried hmem
      rw [← Option.mem_some.mp hmem]
      exact h.live uploadTask rfl
  sentAgain := by
    intro uploadTask self fault h hfind hfault hok
    apply h.entered hcache uploadTask
    intro event hevent
    -- a request with an event in it is not that of a cancelled upload
    have hlive := hok uploadTask hfind hfault (List.ne_nil_of_mem hevent)
    exact (h.live uploadTask rfl hlive).2 event hevent
  acknowledged := fun h hlive hremove => h.acknowledged hcache hlive hremove
  ended := fun h => h.ended
  finished := by
    intro self cancelledUploads h
    exact ⟨h.sent, h.buffered, h.cached, by simp, by simp⟩

/-! ## 3. Runs -/

/-- In every run in which no backoff timer goes off for a cancelled upload, over a cache that can be
cleared and in which no store fails, nothing accepted before an opt-out is in a request after it. -/
theorem nothingSentAfterOptOut_of_liveBackoff (hcache : ConfinedCache parts.cache Within Denotes)
    (hclears : ∀ cache, (parts.cache.removeAll cache).1 = .ok ())
    (permissionsProvider : EmerPermissionsProvider) {persistentCache : κ}
    (hstart : Within persistentCache fun _ => True) (maxBytesBuffered : Nat) (pastEvents : List ε)
    {events : List (DaemonEvent ε)}
    (hlive : EachStep (step parts) (Meets LiveBackoff)
      (.ok (new parts permissionsProvider persistentCache maxBytesBuffered pastEvents)) events) :
    Throughout (step parts) (fun outcome => NothingSentAfterOptOut (ofOutcome outcome).trace)
      (.ok (new parts permissionsProvider persistentCache maxBytesBuffered pastEvents)) events := by
  have hinitial : Discreet Within Denotes none
      (initial permissionsProvider persistentCache maxBytesBuffered) :=
    ⟨afterEach_nil, by simp [initial], hcache.mono hstart fun _ _ => afterEach_nil, by simp,
      by simp⟩
  have hrun := (discreet_uploadInvariant hcache hclears).throughout hinitial hlive
  exact hrun.mono fun outcome ⟨upload, _, hdiscreet⟩ => hdiscreet.sent

/-- The parts of a daemon over a cache whose operations may fail. -/
def faultyParts (storeFault : Nat → SaveFault) (removalSaved : Nat → Bool) :
    DaemonParts (EmerPersistentCache × Nat) (StorableVariant eventVariants .little) where
  cost := fun event => emerPersistentCacheCost event.variant
  cache := EmerPersistentCache.opsWithFaults eventVariants .little storeFault removalSaved
  parsesPingSocket := fun _ => true
  parsesHttpRequestUrl := fun _ => true

def faultyDaemon (storeFault : Nat → SaveFault) (removalSaved : Nat → Bool) :
    EmerDaemon (EmerPersistentCache × Nat) (StorableVariant eventVariants .little) :=
  .new (faultyParts storeFault removalSaved)
    (emerPermissionsProviderNew (.parsed sampleConfigFile) none) (smallSyncedCache, 0) 100000 []

/-- An upload that is retried and then cancelled by an opt-out, with its response still to come.
Later an event is stored, and cannot be removed when it has been sent. -/
def retriedThenOptedOut : List (DaemonEvent (StorableVariant eventVariants .little)) :=
  [.recordEvent (storedSingular 3), .uploadEvents, .canReach true .none, .httpResponse 0 .retryable,
    .backoffTimer 0 .none, .setDaemonEnabled false, .httpResponse 0 .retryable,
    .setDaemonEnabled true, .recordEvent (storedSingular 5), .uploadEvents, .canReach false .none,
    .uploadEvents, .canReach true .none, .httpResponse 2 .successful, .uploadEvents,
    .canReach true .none]

theorem nothingSentAfterOptOut_retried :
    Throughout (step (faultyParts (fun _ => .none) fun _ => false))
      (fun outcome => NothingSentAfterOptOut (ofOutcome outcome).trace)
      (.ok (faultyDaemon (fun _ => .none) fun _ => false)) retriedThenOptedOut :=
  nothingSentAfterOptOut_of_liveBackoff
    (EmerPersistentCache.confined_removals (by decide) fun _ => false)
    (fun cache => cache.1.removeAll_saved) _
    ⟨[], smallSyncedCache_empty.contents, fun _ _ => trivial⟩ _ _ (by decide +kernel)

/-- The first store fails when the metadata is to be written, and the second one comes after an
opt-out. -/
def storedThenOptedOut : List (DaemonEvent (StorableVariant eventVariants .little)) :=
  [.recordEvent (storedSingular 3), .uploadEvents, .canReach false .none, .setDaemonEnabled false,
    .setDaemonEnabled true, .recordEvent (storedSingular 5), .uploadEvents, .canReach false .none,
    .uploadEvents, .canReach true .none]

def firstStoreFails (n : Nat) : SaveFault := if n = 0 then .metadata else .none

/-- The opt-out comes while the upload waits to be retried: its timer sends the event again.  Or it
comes after a store has failed: the next one stores the old event with the new one. -/
theorem sent_after_optOut :
    ¬ Throughout (step sampleParts)
        (fun outcome => NothingSentAfterOptOut (ofOutcome outcome).trace) (.ok sampleDaemon)
        [.recordEvent 3, .uploadEvents, .canReach true .none, .httpResponse 0 .retryable,
          .setDaemonEnabled false, .backoffTimer 0 .none] ∧
      ¬ Throughout (step (faultyParts firstStoreFails fun _ => true))
        (fun outcome => NothingSentAfterOptOut (ofOutcome outcome).trace)
        (.ok (faultyDaemon firstStoreFails fun _ => true)) storedThenOptedOut := by
  constructor
  · intro h
    have htrace : (ofOutcome (run (step sampleParts) (.ok sampleDaemon)
        [.recordEvent 3, .uploadEvents, .canReach true .none, .httpResponse 0 .retryable,
          .setDaemonEnabled false, .backoffTimer 0 .none])).trace =
        [.accepted 3, .queueHttpRequest 0 [3] true true] ++
          .optedOut :: [.queueHttpRequest 0 [3] false true] := by
      decide +kernel
    have hsent := h.last _ _ htrace 0 [3] false true List.mem_cons_self 3 List.mem_cons_self
    cases List.mem_singleton.mp hsent
  · intro h
    have htrace : (ofOutcome (run (step (faultyParts firstStoreFails fun _ => true))
        (.ok (faultyDaemon firstStoreFails fun _ => true)) storedThenOptedOut)).trace =
        [.accepted (storedSingular 3), .returned 0 .unreachable] ++
          .optedOut :: [.accepted (storedSingular 5), .returned 1 .unreachable,
            .queueHttpRequest 2 [storedSingular 3, storedSingular 5] true true] := by
      decide +kernel
    have hsent := h.last _ _ htrace 2 [storedSingular 3, storedSingular 5] true true
      (by decide +kernel) (storedSingular 3) List.mem_cons_self
    revert hsent
    decide +kernel

end EmerDaemon

end EventRecorder
