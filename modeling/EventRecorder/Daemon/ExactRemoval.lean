import EventRecorder.Daemon.CacheLaws
import EventRecorder.Daemon.UploadInFlight

/-!
# Removing exactly what was uploaded

A request remembers a token and a number of buffered events.  By the time the server accepts it they
still have to denote its events.  New events only join the buffer at its end, and stored events the
cache at its end, but a flush moves the front of the buffer.
-/

namespace EventRecorder

open Theory

/-! ## 1. The ledger -/

/-- The accepted events that no opt-out has discarded, and those that the server has. -/
structure Ledger (ε : Type*) where
  kept : List ε
  acknowledged : List ε
  deriving DecidableEq, Repr

namespace Ledger

variable {ε : Type*}

/-- An opt-out discards what the server does not have. -/
def enter (ledger : Ledger ε) : Action ε → Ledger ε
  | .accepted event => { ledger with kept := ledger.kept ++ [event] }
  | .optedOut => { ledger with kept := ledger.kept.take ledger.acknowledged.length }
  | .acknowledged body => { ledger with acknowledged := ledger.acknowledged ++ body }
  | .queueHttpRequest .. | .returned .. => ledger

/-- The ledger of a run over a cache that holds `cached` at its start. -/
def ofTrace (cached : List ε) (trace : List (Action ε)) : Ledger ε :=
  trace.foldl enter ⟨cached, []⟩

theorem ofTrace_snoc (cached : List ε) (trace : List (Action ε)) (action : Action ε) :
    ofTrace cached (trace ++ [action]) = (ofTrace cached trace).enter action := by
  rw [ofTrace, List.foldl_append]
  rfl

end Ledger

namespace EmerDaemon

variable {κ ε : Type*} {parts : DaemonParts κ ε} {Contents : κ → List ε → Prop}
  {fits : List ε → List ε → Nat} {token : List ε → Nat} {start : List ε}
  {self next : EmerDaemon κ ε}

/-- The events that wait to be uploaded, those in the cache first. -/
def Pending (Contents : κ → List ε → Prop) (self : EmerDaemon κ ε) (events : List ε) : Prop :=
  ∃ cached, Contents self.persistentCache cached ∧ cached ++ self.buffer.variantArray = events

variable (parts Contents) in
/-- When the server accepts the request, its events go and the others stay. -/
def RemovesExactly (self : EmerDaemon κ ε) (uploadTask : UploadTask ε) : Prop :=
  uploadTask.numBufferEvents ≤ self.buffer.variantArray.length ∧
    ∃ rest removed, Pending Contents self (uploadTask.requestBody ++ rest) ∧
      (self.acknowledged parts uploadTask).removeEvents parts uploadTask.numBufferEvents =
        .ok removed ∧
      Pending Contents removed rest ∧
      self.handle parts (.httpResponse uploadTask.taskId .successful) =
        ((removed.flushToPersistentCache parts).log
          (.returned uploadTask.taskId .uploaded)).finishNetworkCallback parts

variable (parts) in
/-- When the server accepts the request, nothing happens but that the upload ends. -/
def RemovesNothing (self : EmerDaemon κ ε) (uploadTask : UploadTask ε) : Prop :=
  ∃ reset : EmerDaemon κ ε, reset.buffer = self.buffer ∧
    reset.persistentCache = self.persistentCache ∧ reset.trace = self.trace ∧
    self.handle parts (.httpResponse uploadTask.taskId .successful) =
      (reset.log (.returned uploadTask.taskId .uploaded)).finishNetworkCallback parts

variable (parts Contents) in
/-- Acknowledged events are removed exactly, and none is lost or there twice. -/
structure ExactRemoval (start : List ε) (daemon : EmerDaemon κ ε) : Prop where
  balanced : ∃ pending, Pending Contents daemon pending ∧
    (Ledger.ofTrace start daemon.trace).acknowledged ++ pending =
      (Ledger.ofTrace start daemon.trace).kept
  removes : ∀ uploadTask ∈ daemon.awaitingResponse,
    uploadTask.taskId ∉ daemon.cancelledUploads → RemovesExactly parts Contents daemon uploadTask
  cancelled : ∀ uploadTask ∈ daemon.awaitingResponse,
    uploadTask.taskId ∈ daemon.cancelledUploads → RemovesNothing parts daemon uploadTask

variable (parts) in
/-- Either no buffered event is part of a request that is under way, or a flush would find no room
for the first one. -/
def FlushKeepsFront (self : EmerDaemon κ ε) : Prop :=
  self.FlushesWhenDequeued →
    ∀ uploadTask ∈ self.waiting, uploadTask.taskId ∉ self.cancelledUploads →
      uploadTask.numBufferEvents ≠ 0 →
        (parts.cache.store self.persistentCache self.buffer.variantArray).1 = some 0

variable (parts) in
instance (self : EmerDaemon κ ε) : Decidable (self.FlushKeepsFront parts) :=
  inferInstanceAs (Decidable (_ → ∀ uploadTask ∈ self.waiting, _))

variable (parts) in
/-- A request for an upload that is refused because uploading is off keeps the front of the buffer
that an upload under way has sent. -/
def RequestKeepsFront (self : EmerDaemon κ ε) : DaemonEvent ε → Prop
  | .uploadEvents => self.FlushKeepsFront parts
  | .uploadTimer => (self.getEnvironment parts).FlushKeepsFront parts
  | _ => True

instance (self : EmerDaemon κ ε) (event : DaemonEvent ε) :
    Decidable (self.RequestKeepsFront parts event) :=
  match event with
  | .uploadEvents | .uploadTimer => inferInstanceAs (Decidable (FlushKeepsFront parts _))
  | .recordEvent .. | .canReach .. | .httpResponse .. | .backoffTimer .. | .setDaemonEnabled ..
  | .setUploadingEnabled .. | .writeConfigFileIdle .. | .configFileEdited .. => isTrue trivial

/-! ## 2. What a request remembers -/

/-- The cache and the buffer begin with the events of a request, and its token and its number of
buffered events tell how far.  A request that does not exhaust the cache has none of the buffer. -/
def Describes (token : List ε → Nat) (uploadTask : UploadTask ε) (cached buffered : List ε) :
    Prop :=
  ∃ stored more sent rest, cached = stored ++ more ∧ buffered = sent ++ rest ∧
    uploadTask.requestBody = stored ++ sent ∧ uploadTask.token = token stored ∧
    uploadTask.numBufferEvents = sent.length ∧ (sent = [] ∨ more = [])

theorem Describes.append {uploadTask : UploadTask ε} {cached buffered : List ε}
    (h : Describes token uploadTask cached buffered) (events : List ε) :
    Describes token uploadTask cached (buffered ++ events) := by
  obtain ⟨stored, more, sent, rest, hcached, hbuffered, hrest⟩ := h
  refine ⟨stored, more, sent, rest ++ events, hcached, ?_, hrest⟩
  rw [hbuffered, List.append_assoc]

/-- A flush that moves none of the events sent, or nothing at all. -/
theorem Describes.flush {uploadTask : UploadTask ε} {cached buffered : List ε} {numStored : Nat}
    (h : Describes token uploadTask cached buffered)
    (hkeeps : uploadTask.numBufferEvents = 0 ∨ numStored = 0) :
    Describes token uploadTask (cached ++ buffered.take numStored) (buffered.drop numStored) := by
  -- without buffered events in the request, whatever is flushed goes behind its stored ones
  rcases hkeeps with hnone | rfl
  · obtain ⟨stored, more, sent, rest, hcached, hbuffered, hbody, htoken, hsent, -⟩ := h
    have hempty : sent = [] := List.eq_nil_of_length_eq_zero (hsent ▸ hnone)
    refine ⟨stored, more ++ buffered.take numStored, sent, buffered.drop numStored, ?_, ?_, hbody,
      htoken, hsent, .inl hempty⟩
    · rw [hcached, List.append_assoc]
    · rw [hempty, List.nil_append]
  · rw [List.take_zero, List.append_nil, List.drop_zero]
    exact h

/-! ## 3. The invariant -/

/-- The ledger balances, and an upload under way still describes its events. -/
structure Accounted (Contents : κ → List ε → Prop) (token : List ε → Nat) (start cached : List ε)
    (upload : Option (UploadTask ε)) (daemon : EmerDaemon κ ε) : Prop where
  contents : Contents daemon.persistentCache cached
  balanced : (Ledger.ofTrace start daemon.trace).acknowledged ++
    (cached ++ daemon.buffer.variantArray) = (Ledger.ofTrace start daemon.trace).kept
  current : ∀ uploadTask ∈ upload, daemon.currentUpload = some uploadTask.taskId
  describes : ∀ uploadTask ∈ upload, uploadTask.taskId ∉ daemon.cancelledUploads →
    Describes token uploadTask cached daemon.buffer.variantArray

/-- A flush of the buffer would move nothing that the upload under way has sent. -/
def Quiet (fits : List ε → List ε → Nat) (cached : List ε) (upload : Option (UploadTask ε))
    (daemon : EmerDaemon κ ε) : Prop :=
  ∀ uploadTask ∈ upload, uploadTask.taskId ∉ daemon.cancelledUploads →
    uploadTask.numBufferEvents = 0 ∨ fits cached daemon.buffer.variantArray = 0

namespace Accounted

variable {cached : List ε} {upload : Option (UploadTask ε)}

theorem same (h : Accounted Contents token start cached upload self)
    (hsame : SameContents self next) : Accounted Contents token start cached upload next := by
  refine ⟨?_, ?_, ?_, ?_⟩
  · rw [hsame.cache]
    exact h.contents
  · rw [hsame.trace, hsame.buffer]
    exact h.balanced
  · rw [hsame.current]
    exact h.current
  · rw [hsame.cancelled, hsame.buffer]
    exact h.describes

theorem ended (h : Accounted Contents token start cached upload self) :
    Accounted Contents token start cached none self where
  contents := h.contents
  balanced := h.balanced
  current := by simp
  describes := by simp

/-- An action that does not enter the ledger. -/
theorem log (h : Accounted Contents token start cached upload self) {action : Action ε}
    (hledger : ∀ ledger : Ledger ε, ledger.enter action = ledger) :
    Accounted Contents token start cached upload (self.log action) := by
  refine ⟨h.contents, ?_, h.current, h.describes⟩
  show (Ledger.ofTrace start (self.trace ++ [action])).acknowledged ++ _ =
    (Ledger.ofTrace start (self.trace ++ [action])).kept
  rw [Ledger.ofTrace_snoc, hledger]
  exact h.balanced

theorem bufferEvent (h : Accounted Contents token start cached upload self) (event : ε) :
    Accounted Contents token start cached upload (self.bufferEvent parts event) := by
  rw [bufferEvent_eq]
  by_cases haccepts : self.buffer.accepts parts.cost event
  · rw [if_pos haccepts]
    refine ⟨h.contents, ?_, h.current, ?_⟩
    · dsimp only
      rw [EventBuffer.variantArray_bufferEvent, if_pos haccepts, Ledger.ofTrace_snoc]
      show (Ledger.ofTrace start self.trace).acknowledged ++ _ =
        (Ledger.ofTrace start self.trace).kept ++ [event]
      rw [← h.balanced]
      simp only [List.append_assoc]
    · intro uploadTask hmem hlive
      dsimp only
      rw [EventBuffer.variantArray_bufferEvent, if_pos haccepts]
      exact (h.describes uploadTask hmem hlive).append [event]
  · rw [if_neg haccepts, List.append_nil]
    have hsame : (self.buffer.bufferEvent parts.cost event).variantArray =
        self.buffer.variantArray := by
      rw [EventBuffer.variantArray_bufferEvent, if_neg haccepts]
    refine ⟨h.contents, ?_, h.current, ?_⟩
    · dsimp only
      rw [hsame]
      exact h.balanced
    · dsimp only
      rw [hsame]
      exact h.describes

theorem flush (hlaws : LawfulCache parts.cache Contents fits token)
    (h : Accounted Contents token start cached upload self)
    (hquiet : Quiet fits cached upload self) :
    ∃ cached', Accounted Contents token start cached' upload (self.flushToPersistentCache parts) ∧
      Quiet fits cached' upload (self.flushToPersistentCache parts) := by
  obtain ⟨hstore, hcontents⟩ := hlaws.store self.buffer.variantArray h.contents
  rcases flushToPersistentCache_cases parts self with hflush | ⟨hnone, -⟩ |
      ⟨numEvents, buffer, hsome, hremove, hflush⟩
  · rw [hflush]
    exact ⟨cached, h, hquiet⟩
  · rw [hstore] at hnone
    cases hnone
  -- the events move from the front of the buffer to the end of the cache
  · have hbuffer := (EventBuffer.removeEvents_eq_some hremove).2
    have hfits : fits cached self.buffer.variantArray = numEvents :=
      Option.some.inj (hstore.symm.trans hsome)
    rw [hfits] at hcontents
    rw [hflush]
    refine ⟨_, ⟨hcontents, ?_, h.current, ?_⟩, ?_⟩
    · dsimp only
      rw [hbuffer, List.append_assoc, List.take_append_drop]
      exact h.balanced
    · intro uploadTask hmem hlive
      dsimp only
      rw [hbuffer]
      apply (h.describes uploadTask hmem hlive).flush
      rw [← hfits]
      exact hquiet uploadTask hmem hlive
    · intro uploadTask hmem hlive
      rcases hquiet uploadTask hmem hlive with hzero | hzero
      · exact .inl hzero
      · right
        dsimp only
        have hnothing : numEvents = 0 := hfits.symm.trans hzero
        rw [hbuffer, hnothing, List.take_zero, List.append_nil, List.drop_zero]
        exact hzero

theorem withProvider (hlaws : LawfulCache parts.cache Contents fits token)
    (h : Accounted Contents token start cached upload self) (provider : EmerPermissionsProvider)
    (notified : List ProviderProperty) :
    ∃ cached', Accounted Contents token start cached' upload
        (self.withProvider parts provider notified) ∧
      (Quiet fits cached upload self →
        Quiet fits cached' upload (self.withProvider parts provider notified)) := by
  rcases self.withProvider_cases parts provider notified with ⟨recording, -, heq⟩ | heq
  · rw [heq]
    exact ⟨cached, ⟨h.contents, h.balanced, h.current, h.describes⟩, id⟩
  · -- the upload in flight is the current one, which is cancelled now
    have hcancelled : ∀ uploadTask ∈ upload,
        uploadTask.taskId ∈ self.currentUpload.toList ++ self.cancelledUploads := by
      intro uploadTask hmem
      rw [h.current uploadTask hmem]
      exact List.mem_cons_self
    rw [heq]
    refine ⟨[], ⟨hlaws.removeAll h.contents, ?_, h.current, ?_⟩, ?_⟩
    · dsimp only
      rw [Ledger.ofTrace_snoc, variantArray_emptied, List.append_nil]
      show (Ledger.ofTrace start self.trace).acknowledged ++ [] =
        (Ledger.ofTrace start self.trace).kept.take
          (Ledger.ofTrace start self.trace).acknowledged.length
      rw [← h.balanced, List.take_left, List.append_nil]
    · exact fun uploadTask hmem hlive => absurd (hcancelled uploadTask hmem) hlive
    · exact fun _ uploadTask hmem hlive => absurd (hcancelled uploadTask hmem) hlive

theorem housekeeping (hlaws : LawfulCache parts.cache Contents fits token) {mayFlush : Prop}
    (hstep : Housekeeping parts mayFlush self next)
    (h : Accounted Contents token start cached upload self)
    (hquiet : mayFlush → Quiet fits cached upload self) :
    ∃ cached', Accounted Contents token start cached' upload next ∧
      (mayFlush → Quiet fits cached' upload next) := by
  cases hstep with
  | flush hmay =>
    obtain ⟨cached', hflushed, hquiet'⟩ := h.flush hlaws (hquiet hmay)
    exact ⟨cached', hflushed, fun _ => hquiet'⟩
  | provider provider notified =>
    obtain ⟨cached', hprovided, hquiet'⟩ := h.withProvider hlaws provider notified
    exact ⟨cached', hprovided, fun hmay => hquiet' (hquiet hmay)⟩
  | returned taskId result => exact ⟨cached, h.log fun _ => rfl, hquiet⟩
  | dequeued rest =>
    exact ⟨cached, ⟨h.contents, h.balanced, h.current, h.describes⟩, hquiet⟩
  | check => exact ⟨cached, ⟨h.contents, h.balanced, h.current, h.describes⟩, hquiet⟩

/-- A request for an upload, refused or not. -/
theorem dequeued (hlaws : LawfulCache parts.cache Contents fits token)
    (h : Accounted Contents token start cached upload self) (hupload : self.waiting = upload.toList)
    (hkeeps : self.FlushKeepsFront parts) (maxUploadSize : Nat) :
    ∃ cached', Accounted Contents token start cached' upload
      (ofOutcome ((self.enqueued maxUploadSize).dequeueAndDoUpload parts)) := by
  let mayFlush := (self.enqueued maxUploadSize).FlushesWhenDequeued
  have hkept : ∃ cached', Accounted Contents token start cached' upload
        (ofOutcome ((self.enqueued maxUploadSize).dequeueAndDoUpload parts)) ∧
      (mayFlush → Quiet fits cached' upload
        (ofOutcome ((self.enqueued maxUploadSize).dequeueAndDoUpload parts))) := by
    apply (dequeueAndDoUpload_housekept parts (self.enqueued maxUploadSize)).keeps
      (I := fun reached => ∃ cached', Accounted Contents token start cached' upload reached ∧
        (mayFlush → Quiet fits cached' upload reached))
    · rintro reached later hstep ⟨cached', hreached, hquiet⟩
      exact hreached.housekeeping hlaws hstep hquiet
    · refine ⟨cached, h.same ⟨rfl, rfl, rfl, rfl, rfl, rfl, rfl⟩, ?_⟩
      intro hflushes uploadTask hmem hlive
      by_cases hzero : uploadTask.numBufferEvents = 0
      · exact .inl hzero
      · right
        have hwaiting : uploadTask ∈ self.waiting := by
          rw [hupload, Option.mem_toList]
          exact hmem
        have hstore := hkeeps hflushes uploadTask hwaiting hlive hzero
        rw [(hlaws.store self.buffer.variantArray h.contents).1] at hstore
        exact Option.some.inj hstore
  obtain ⟨cached', haccounted, -⟩ := hkept
  exact ⟨cached', haccounted⟩

/-- The events that a request takes from the cache. -/
theorem addStoredEvents (hlaws : LawfulCache parts.cache Contents fits token)
    (h : Accounted Contents token start cached none self) (maxBytes : Nat) :
    ∃ stored cache, stored <+: cached ∧ Contents cache cached ∧
      self.addStoredEvents parts maxBytes =
        (stored, token stored, !parts.cache.hasMore cache (token stored),
          { self with persistentCache := cache }) := by
  obtain ⟨stored, hfront, hread, hcontents⟩ := hlaws.read maxBytes h.contents
  rcases addStoredEvents_cases parts self maxBytes with
    ⟨variants, numBytes, hok, hadded⟩ | ⟨error, cache, herror, -, -⟩
  · rw [hread] at hok
    obtain ⟨rfl, rfl⟩ := Prod.mk.inj (Except.ok.inj hok)
    exact ⟨stored, _, hfront, hcontents, hadded⟩
  · rw [hread] at herror
    cases herror

theorem createRequestBody (hlaws : LawfulCache parts.cache Contents fits token)
    (h : Accounted Contents token start cached none self) (uploadTask : UploadTask ε)
    (timestamps : Bool) :
    Accounted Contents token start cached none
      (self.createRequestBody parts uploadTask timestamps).2 := by
  obtain ⟨stored, cache, -, hcontents, hadded⟩ :=
    h.addStoredEvents hlaws uploadTask.maxUploadSize
  rw [createRequestBody_snd, hadded]
  exact ⟨hcontents, h.balanced, h.current, h.describes⟩

theorem requestDescribes (hlaws : LawfulCache parts.cache Contents fits token)
    (h : Accounted Contents token start cached none self) {uploadTask request : UploadTask ε}
    {timestamps : Bool}
    (hbody : (self.createRequestBody parts uploadTask timestamps).1 = some request) :
    Describes token request cached self.buffer.variantArray := by
  obtain ⟨sent, ⟨rest, hbuffer⟩, hmore, rfl⟩ := createRequestBody_eq_some hbody
  obtain ⟨stored, cache, ⟨more, rfl⟩, hcontents, hadded⟩ :=
    h.addStoredEvents hlaws uploadTask.maxUploadSize
  rw [hadded] at hmore ⊢
  refine ⟨stored, more, sent, rest, rfl, hbuffer.symm, rfl, rfl, rfl, ?_⟩
  -- buffered events are only added when the cache has no more
  by_cases hsent : sent = []
  · exact .inl hsent
  · right
    by_contra hne
    have hfalse := hmore hsent
    rw [(hlaws.hasMore hcontents).mpr hne] at hfalse
    cases hfalse

/-- The removal that follows the acknowledgement of an upload. -/
theorem acknowledged (hlaws : LawfulCache parts.cache Contents fits token)
    {uploadTask : UploadTask ε}
    (h : Accounted Contents token start cached (some uploadTask) self)
    (hlive : uploadTask.taskId ∉ self.cancelledUploads) :
    uploadTask.numBufferEvents ≤ self.buffer.variantArray.length ∧
      ∃ more removed, (self.acknowledged parts uploadTask).removeEvents parts
          uploadTask.numBufferEvents = .ok removed ∧
        Accounted Contents token start more none removed ∧
        cached ++ self.buffer.variantArray =
          uploadTask.requestBody ++ (more ++ removed.buffer.variantArray) := by
  obtain ⟨stored, more, sent, rest, rfl, hbuffer, hbody, htoken, hsent, hexhausts⟩ :=
    h.describes uploadTask rfl hlive
  have hle : uploadTask.numBufferEvents ≤ self.buffer.variantArray.length := by
    rw [hbuffer, hsent, List.length_append]
    exact Nat.le_add_right _ _
  obtain ⟨buffer, hremove⟩ : ∃ buffer,
      self.buffer.removeEvents parts.cost uploadTask.numBufferEvents = some buffer :=
    EventBuffer.removeEvents_isSome hle
  have hrest : buffer.variantArray = rest := by
    rw [(EventBuffer.removeEvents_eq_some hremove).2, hbuffer, hsent, List.drop_left]
  have hsplit : stored ++ more ++ self.buffer.variantArray =
      uploadTask.requestBody ++ (more ++ rest) := by
    rw [hbuffer, hbody]
    rcases hexhausts with hnil | hnil
    · simp only [hnil, List.append_assoc, List.nil_append]
    · simp only [hnil, List.append_assoc, List.nil_append]
  refine ⟨hle, more, { self.acknowledged parts uploadTask with buffer := buffer },
    removeEvents_of_some hremove, ?_, ?_⟩
  · refine ⟨?_, ?_, by simp, by simp⟩
    · show Contents (parts.cache.remove self.persistentCache uploadTask.token).2 more
      rw [htoken]
      exact hlaws.remove h.contents
    · show (Ledger.ofTrace start
          (self.trace ++ [.acknowledged uploadTask.requestBody])).acknowledged ++
          (more ++ buffer.variantArray) =
        (Ledger.ofTrace start (self.trace ++ [.acknowledged uploadTask.requestBody])).kept
      rw [Ledger.ofTrace_snoc, hrest]
      show (Ledger.ofTrace start self.trace).acknowledged ++ uploadTask.requestBody ++
        (more ++ rest) = (Ledger.ofTrace start self.trace).kept
      rw [← h.balanced, List.append_assoc, ← hsplit]
  · rw [hsplit, hrest]

end Accounted

theorem accounted_uploadInvariant (hlaws : LawfulCache parts.cache Contents fits token)
    (start : List ε) :
    UploadInvariant parts (RequestKeepsFront parts) fun upload self =>
      ∃ cached, Accounted Contents token start cached upload self where
  same := by
    rintro upload self next hsame ⟨cached, h⟩
    exact ⟨cached, h.same hsame⟩
  current := by
    rintro uploadTask self ⟨cached, h⟩
    exact h.current uploadTask rfl
  recorded := by
    rintro upload self event ⟨cached, h⟩ -
    exact ⟨cached, h.bufferEvent event⟩
  housekeeping := by
    rintro upload self next hstep ⟨cached, h⟩
    -- the buffer is flushed while no upload is under way
    have hquiet : upload = none → Quiet fits cached upload self := by
      rintro rfl uploadTask hmem
      cases hmem
    obtain ⟨cached', hkept, -⟩ := h.housekeeping hlaws hstep hquiet
    exact ⟨cached', hkept⟩
  requested := by
    rintro upload self hupload ⟨cached, h⟩ hkeeps
    exact h.dequeued hlaws hupload hkeeps gMaxsize
  timerFired := by
    rintro upload self hupload ⟨cached, h⟩ hkeeps
    obtain ⟨cached', hreloaded, -⟩ := h.withProvider hlaws
      self.permissionsProvider.getEnvironment.2.1 self.permissionsProvider.getEnvironment.2.2
    have hsame := sameAwaiting_housekept (getEnvironment_housekept parts True self)
    exact hreloaded.dequeued hlaws (hsame.waiting_eq.trans hupload) hkeeps maxRequestPayload
  notStarted := by
    rintro self uploadTask ⟨cached, h⟩
    exact ⟨cached, h.createRequestBody hlaws uploadTask false⟩
  started := by
    rintro self next uploadTask request ⟨cached, h⟩ hbody
    have hbuilt := h.createRequestBody hlaws uploadTask true
    have hsome : (self.createRequestBody parts uploadTask true).1 = some request := by rw [hbody]
    have hdescribes := h.requestDescribes hlaws hsome
    obtain ⟨cache, hnext⟩ := createRequestBody_eq parts self uploadTask true
    rw [hbody] at hbuilt hnext
    dsimp only at hbuilt hnext
    have hstarted : Accounted Contents token start cached (some request)
        { next with currentUpload := some request.taskId } := by
      refine ⟨hbuilt.contents, hbuilt.balanced, ?_, ?_⟩
      · intro uploadTask hmem
        rw [Option.mem_some.mp hmem]
      · intro uploadTask hmem _
        have hbuffer : next.buffer = self.buffer := by rw [hnext]
        rw [← Option.mem_some.mp hmem]
        dsimp only
        rwa [hbuffer]
    exact ⟨cached, hstarted.log fun _ => rfl⟩
  retried := by
    rintro uploadTask self attemptNum ⟨cached, h⟩
    refine ⟨cached, h.contents, h.balanced, ?_, ?_⟩
    · intro retried hmem
      rw [← Option.mem_some.mp hmem]
      exact h.current uploadTask rfl
    · intro retried hmem
      rw [← Option.mem_some.mp hmem]
      exact h.describes uploadTask rfl
  sentAgain := by
    rintro uploadTask self fault ⟨cached, h⟩ - - -
    exact ⟨cached, h.log fun _ => rfl⟩
  acknowledged := by
    rintro uploadTask self outcome ⟨cached, h⟩ hlive hremove
    obtain ⟨-, more, removed, hok, hremoved, -⟩ := h.acknowledged hlaws hlive
    rw [hok] at hremove
    subst hremove
    exact ⟨more, hremoved⟩
  ended := by
    rintro uploadTask self ⟨cached, h⟩
    exact ⟨cached, h.ended⟩
  finished := by
    rintro self cancelledUploads ⟨cached, h⟩
    exact ⟨cached, h.contents, h.balanced, by simp, by simp⟩

/-! ## 4. Runs -/

/-- The task that waits for a response is the upload under way, and is found by its number. -/
theorem find_of_waiting {upload : Option (UploadTask ε)} {uploadTask : UploadTask ε}
    (hupload : self.waiting = upload.toList) (hmem : uploadTask ∈ self.awaitingResponse) :
    upload = some uploadTask ∧
      self.awaitingResponse.find? (·.taskId = uploadTask.taskId) = some uploadTask := by
  have hwaiting : uploadTask ∈ upload.toList := by
    rw [← hupload, waiting]
    exact List.mem_append_left _ hmem
  have hsome : upload = some uploadTask := Option.mem_toList.mp hwaiting
  refine ⟨hsome, ?_⟩
  rw [hsome, Option.toList_some, waiting, List.append_eq_singleton_iff] at hupload
  rcases hupload with ⟨hnil, -⟩ | ⟨hsingle, -⟩
  · rw [hnil] at hmem
    cases hmem
  · rw [hsingle]
    simp

theorem exactRemoval_of_inFlight (hlaws : LawfulCache parts.cache Contents fits token)
    (h : InFlight (fun upload self => ∃ cached, Accounted Contents token start cached upload self)
      self) : ExactRemoval parts Contents start self := by
  obtain ⟨upload, hupload, cached, haccounted⟩ := h
  refine ⟨⟨_, ⟨cached, haccounted.contents, rfl⟩, haccounted.balanced⟩, ?_, ?_⟩
  · intro uploadTask hmem hlive
    obtain ⟨rfl, hfind⟩ := find_of_waiting hupload hmem
    obtain ⟨hle, more, removed, hremove, hremoved, hsplit⟩ := haccounted.acknowledged hlaws hlive
    refine ⟨hle, _, removed, ⟨cached, haccounted.contents, hsplit⟩, hremove,
      ⟨more, hremoved.contents, rfl⟩, ?_⟩
    rw [handle, hfind]
    dsimp only [handleHttpResponse]
    rw [if_neg hlive]
    rw [EmerDaemon.acknowledged, responseReceived] at hremove
    rw [hremove]
  · intro uploadTask hmem hcancelled
    obtain ⟨rfl, hfind⟩ := find_of_waiting hupload hmem
    refine ⟨{ self.responseReceived uploadTask.taskId with
      cancelledUploads := self.cancelledUploads.filter (· ≠ uploadTask.taskId) }, rfl, rfl, rfl, ?_⟩
    rw [handle, hfind]
    dsimp only [handleHttpResponse]
    rw [if_pos hcancelled]
    rfl

/-- In every run over a lawful cache in which no refused request moves buffered events from under an
upload, acknowledged events are removed exactly, and no event is lost or kept twice. -/
theorem exactRemoval_of_requestKeepsFront (hlaws : LawfulCache parts.cache Contents fits token)
    (permissionsProvider : EmerPermissionsProvider) {persistentCache : κ}
    (hstart : Contents persistentCache start) (maxBytesBuffered : Nat) (pastEvents : List ε)
    {events : List (DaemonEvent ε)}
    (hkeeps : EachStep (step parts) (Meets (RequestKeepsFront parts))
      (.ok (new parts permissionsProvider persistentCache maxBytesBuffered pastEvents)) events) :
    Throughout (step parts) (fun outcome => ExactRemoval parts Contents start (ofOutcome outcome))
      (.ok (new parts permissionsProvider persistentCache maxBytesBuffered pastEvents)) events := by
  have hinitial : Accounted Contents token start start none
      (initial permissionsProvider persistentCache maxBytesBuffered) :=
    ⟨hstart, by simp [initial, Ledger.ofTrace], by simp, by simp⟩
  have hrun := (accounted_uploadInvariant hlaws start).throughout ⟨start, hinitial⟩ hkeeps
  exact hrun.mono fun outcome h => exactRemoval_of_inFlight hlaws h

/-- Two uploads, the first with a retry, an event recorded meanwhile and a refused request. -/
def recordedWhileUploading : List (DaemonEvent Nat) :=
  [.recordEvent 3, .uploadEvents, .canReach true .none, .recordEvent 5, .httpResponse 0 .retryable,
    .backoffTimer 0 .none, .httpResponse 0 .successful, .setUploadingEnabled false, .uploadEvents,
    .setUploadingEnabled true, .uploadEvents, .canReach true .none, .httpResponse 2 .successful]

theorem exactRemoval_recordedWhileUploading :
    Throughout (step sampleParts)
      (fun outcome => ExactRemoval sampleParts (fun cache contents => cache = contents) []
        (ofOutcome outcome)) (.ok sampleDaemon) recordedWhileUploading :=
  exactRemoval_of_requestKeepsFront (fifoCache_lawful id 1000) _ rfl _ _ (by decide +kernel)

/-- Uploading is switched off while an upload waits for its response, another request is refused,
and an event recorded. -/
def flushedWhileUploading : List (DaemonEvent Nat) :=
  [.recordEvent 3, .uploadEvents, .canReach true .none, .setUploadingEnabled false, .uploadEvents,
    .recordEvent 5, .httpResponse 0 .successful]

/-- The refused request flushes the event that was sent.  The response then removes the next event,
and the one that was sent stays. -/
theorem removed_unsent_event :
    ¬ Throughout (step sampleParts)
      (fun outcome => ExactRemoval sampleParts (fun cache contents => cache = contents) []
        (ofOutcome outcome)) (.ok sampleDaemon)
      flushedWhileUploading := by
  intro h
  have hcache : (ofOutcome (run (step sampleParts) (.ok sampleDaemon)
      flushedWhileUploading)).persistentCache = [3] := by
    decide +kernel
  have hbuffer : (ofOutcome (run (step sampleParts) (.ok sampleDaemon)
      flushedWhileUploading)).buffer.variantArray = [] := by
    decide +kernel
  have hledger : Ledger.ofTrace [] (ofOutcome (run (step sampleParts) (.ok sampleDaemon)
      flushedWhileUploading)).trace = ⟨[3, 5], [3]⟩ := by
    decide +kernel
  obtain ⟨pending, ⟨cached, hcached, hsum⟩, hbalanced⟩ := h.last.balanced
  rw [hcache] at hcached
  rw [← hcached, hbuffer] at hsum
  rw [hledger, ← hsum] at hbalanced
  exact absurd hbalanced (by decide)

end EmerDaemon

end EventRecorder
