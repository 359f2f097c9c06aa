import EventRecorder.Daemon.UploadInFlight
import EventRecorder.PersistentCache.EventVariants
import EventRecorder.PersistentCache.Restart

/-!
# Uploads that the timer starts are never wedged

The buffer takes no event that costs more than one request may hold, and the cache stores an event
in as many bytes as it costs.  So the first event that waits fits into a request of that size,
before and after any number of restarts.
-/

namespace EventRecorder

open Theory

/-! ## 1. The byte count of the buffer -/

namespace EventBuffer

variable {ε : Type*} {cost : ε → Nat} {self buffer : EventBuffer ε}

/-- The buffer is within its limit, and so is each event in it within that of a request. -/
structure WithinLimits (cost : ε → Nat) (buffer : EventBuffer ε) : Prop where
  counted : buffer.numBytesBuffered = (buffer.variantArray.map cost).sum
  bounded : buffer.numBytesBuffered ≤ buffer.maxBytesBuffered
  small : ∀ event ∈ buffer.variantArray, cost event ≤ maxRequestPayload
  noOverflow : buffer.maxBytesBuffered + maxRequestPayload < 2 ^ 64

namespace WithinLimits

theorem bufferEvent (h : self.WithinLimits cost) (event : ε) :
    (self.bufferEvent cost event).WithinLimits cost := by
  have hcounted := h.counted
  have hbounded := h.bounded
  have hlimit := h.noOverflow
  unfold EventBuffer.bufferEvent
  simp only
  by_cases hlarge : cost event > maxRequestPayload
  · rw [if_pos (.inl hlarge), if_pos hlarge]
    exact h
  · have hsum : (self.numBytesBuffered + cost event) % 2 ^ 64 =
        self.numBytesBuffered + cost event := Nat.mod_eq_of_lt (by omega)
    rw [hsum]
    by_cases hfull : self.numBytesBuffered + cost event > self.maxBytesBuffered
    · rw [if_pos (.inr hfull), if_neg hlarge]
      exact ⟨hcounted, hbounded, h.small, hlimit⟩
    · rw [if_neg (by omega)]
      refine ⟨?_, Nat.not_lt.mp hfull, ?_, hlimit⟩
      · show self.numBytesBuffered + cost event = ((self.variantArray ++ [event]).map cost).sum
        rw [List.map_append, List.sum_append, hcounted]
        rfl
      · intro other hother
        cases List.mem_append.mp hother with
        | inl hold => exact h.small other hold
        | inr hnew =>
          rw [List.mem_singleton.mp hnew]
          exact Nat.not_lt.mp hlarge

theorem counted_mod (h : self.WithinLimits cost) : self.Counted cost := by
  have hcounted := h.counted
  have hbounded := h.bounded
  have hlimit := h.noOverflow
  show self.numBytesBuffered = _
  rw [← hcounted, Nat.mod_eq_of_lt (by omega)]

/-- Events that leave the buffer take their cost with them. -/
theorem removeEvents (h : self.WithinLimits cost) {numEvents : Nat}
    (hremove : self.removeEvents cost numEvents = some buffer) : buffer.WithinLimits cost := by
  have hcounted := h.counted
  have hbounded := h.bounded
  have hlimit := h.noOverflow
  have hafter := h.counted_mod.removeEvents hremove
  have hmax : buffer.maxBytesBuffered = self.maxBytesBuffered := by
    unfold EventBuffer.removeEvents at hremove
    by_cases hle : numEvents ≤ self.variantArray.length
    · rw [if_pos hle] at hremove
      cases hremove
      rfl
    · rw [if_neg hle] at hremove
      cases hremove
  obtain ⟨-, harray⟩ := removeEvents_eq_some hremove
  have hsum : (buffer.variantArray.map cost).sum ≤ (self.variantArray.map cost).sum := by
    rw [harray]
    exact ((List.drop_sublist _ _).map cost).sum_le_sum fun _ _ => Nat.zero_le _
  have hcount : buffer.numBytesBuffered = (buffer.variantArray.map cost).sum := by
    rw [hafter, Nat.mod_eq_of_lt (by omega)]
  refine ⟨hcount, by omega, ?_, by rw [hmax]; exact hlimit⟩
  intro event hevent
  rw [harray] at hevent
  exact h.small event (List.mem_of_mem_drop hevent)

end WithinLimits

end EventBuffer

namespace EmerDaemon

variable {κ ε : Type*} {parts : DaemonParts κ ε} {self next : EmerDaemon κ ε}
variable {Within : κ → (ε → Prop) → Prop} {Denotes : κ → Nat → Prop}

/-! ## 2. The invariant of the daemon -/

/-- Whatever waits, in the buffer or in the cache, fits into a request. -/
structure Sendable (parts : DaemonParts κ ε) (Within : κ → (ε → Prop) → Prop)
    (Denotes : κ → Nat → Prop) (upload : Option (UploadTask ε)) (daemon : EmerDaemon κ ε) :
    Prop where
  buffered : daemon.buffer.WithinLimits parts.cost
  cached : Within daemon.persistentCache fun event => parts.cost event ≤ maxRequestPayload
  current : ∀ uploadTask ∈ upload, daemon.currentUpload = some uploadTask.taskId
  live : ∀ uploadTask ∈ upload, uploadTask.taskId ∉ daemon.cancelledUploads →
    Denotes daemon.persistentCache uploadTask.token

namespace Sendable

variable {upload : Option (UploadTask ε)}

theorem same (h : Sendable parts Within Denotes upload self) (hsame : SameContents self next) :
    Sendable parts Within Denotes upload next := by
  constructor
  · rw [hsame.buffer]
    exact h.buffered
  · rw [hsame.cache]
    exact h.cached
  · rw [hsame.current]
    exact h.current
  · rw [hsame.cache, hsame.cancelled]
    exact h.live

theorem ended (h : Sendable parts Within Denotes upload self) :
    Sendable parts Within Denotes none self where
  buffered := h.buffered
  cached := h.cached
  current := fun _ hmem => by cases hmem
  live := fun _ hmem => by cases hmem

theorem log (h : Sendable parts Within Denotes upload self) (action : Action ε) :
    Sendable parts Within Denotes upload (self.log action) :=
  ⟨h.buffered, h.cached, h.current, h.live⟩

theorem bufferEvent (h : Sendable parts Within Denotes upload self) (event : ε) :
    Sendable parts Within Denotes upload (self.bufferEvent parts event) := by
  rw [bufferEvent_eq]
  exact ⟨h.buffered.bufferEvent event, h.cached, h.current, h.live⟩

variable (hcache : ConfinedCache parts.cache Within Denotes)

include hcache

theorem flush (h : Sendable parts Within Denotes upload self) :
    Sendable parts Within Denotes upload (self.flushToPersistentCache parts) := by
  have hstored := hcache.store h.cached h.buffered.small
  have hlive : ∀ uploadTask ∈ upload, uploadTask.taskId ∉ self.cancelledUploads →
      Denotes (parts.cache.store self.persistentCache self.buffer.variantArray).2
        uploadTask.token :=
    fun uploadTask hmem hlive => hcache.tokenStored (h.live uploadTask hmem hlive)
  rcases flushToPersistentCache_cases parts self with hflush | ⟨-, hflush⟩ |
      ⟨numEvents, buffer, -, hremove, hflush⟩
  · rwa [hflush]
  · rw [hflush]
    exact ⟨h.buffered, hstored, h.current, hlive⟩
  · rw [hflush]
    exact ⟨h.buffered.removeEvents hremove, hstored, h.current, hlive⟩

theorem createRequestBody (h : Sendable parts Within Denotes none self)
    (uploadTask : UploadTask ε) (timestamps : Bool) :
    Sendable parts Within Denotes none (self.createRequestBody parts uploadTask timestamps).2 := by
  have hread := hcache.read uploadTask.maxUploadSize h.cached
  rw [createRequestBody_snd]
  rcases addStoredEvents_cases parts self uploadTask.maxUploadSize with
    ⟨variants, token, -, hadded⟩ | ⟨error, cache, -, hcleared, hadded⟩
  · rw [hadded]
    exact ⟨h.buffered, hread, h.current, fun _ hmem => by cases hmem⟩
  · rw [hadded]
    refine ⟨h.buffered, ?_, h.current, fun _ hmem => by cases hmem⟩
    rcases hcleared with rfl | rfl
    · exact hread
    · exact hcache.removeAll hread

/-- The token of a request stands for what was read. -/
theorem token (h : Sendable parts Within Denotes none self) {uploadTask request : UploadTask ε}
    {timestamps : Bool}
    (hbody : (self.createRequestBody parts uploadTask timestamps).1 = some request) :
    Denotes (self.createRequestBody parts uploadTask timestamps).2.persistentCache
      request.token := by
  have hread := hcache.read uploadTask.maxUploadSize h.cached
  obtain ⟨buffered, -, -, rfl⟩ := createRequestBody_eq_some hbody
  rw [createRequestBody_snd]
  rcases addStoredEvents_cases parts self uploadTask.maxUploadSize with
    ⟨variants, token, hok, hadded⟩ | ⟨error, cache, -, hcleared, hadded⟩
  · rw [hadded]
    exact (hcache.eventsRead h.cached hok).2
  · rw [hadded]
    rcases hcleared with rfl | rfl
    · exact hcache.zero hread
    · exact hcache.zero (hcache.removeAll hread)

theorem acknowledged {uploadTask : UploadTask ε} {outcome : Outcome κ ε}
    (h : Sendable parts Within Denotes (some uploadTask) self)
    (hlive : uploadTask.taskId ∉ self.cancelledUploads)
    (hremove : (self.acknowledged parts uploadTask).removeEvents parts uploadTask.numBufferEvents =
      outcome) : Sendable parts Within Denotes none (ofOutcome outcome) := by
  have hremoved : Sendable parts Within Denotes none (self.acknowledged parts uploadTask) :=
    ⟨h.buffered, hcache.remove h.cached (h.live uploadTask rfl hlive), h.ended.current,
      fun _ hmem => by cases hmem⟩
  cases outcome with
  | error abort =>
    obtain ⟨rfl, -⟩ := removeEvents_eq_error hremove
    exact hremoved
  | ok next =>
    obtain ⟨buffer, hbuffer, rfl⟩ := removeEvents_eq_ok hremove
    exact ⟨hremoved.buffered.removeEvents hbuffer, hremoved.cached, hremoved.current,
      hremoved.live⟩

theorem withProvider (h : Sendable parts Within Denotes upload self)
    (provider : EmerPermissionsProvider) (notified : List ProviderProperty) :
    Sendable parts Within Denotes upload (self.withProvider parts provider notified) := by
  rcases self.withProvider_cases parts provider notified with ⟨recording, -, heq⟩ | heq
  · rw [heq]
    exact ⟨h.buffered, h.cached, h.current, h.live⟩
  · rw [heq]
    obtain ⟨buffer, hremove⟩ : ∃ buffer,
        self.buffer.removeEvents parts.cost self.buffer.variantArray.length = some buffer :=
      EventBuffer.removeEvents_isSome (le_refl _)
    refine ⟨?_, hcache.removeAll h.cached, h.current, ?_⟩
    · show (emptied parts self.buffer).WithinLimits parts.cost
      rw [emptied, hremove]
      exact h.buffered.removeEvents hremove
    -- the upload in flight is the current one, which is cancelled now
    · intro uploadTask hmem hlive
      apply absurd _ hlive
      dsimp only
      rw [h.current uploadTask hmem]
      exact List.mem_cons_self

theorem housekeeping {mayFlush : Prop} (hstep : Housekeeping parts mayFlush self next)
    (h : Sendable parts Within Denotes upload self) :
    Sendable parts Within Denotes upload next := by
  cases hstep with
  | flush => exact h.flush hcache
  | provider provider notified => exact h.withProvider hcache provider notified
  | returned taskId result => exact h.log _
  | dequeued rest => exact ⟨h.buffered, h.cached, h.current, h.live⟩
  | check => exact ⟨h.buffered, h.cached, h.current, h.live⟩

theorem dequeued (h : Sendable parts Within Denotes upload self) (maxUploadSize : Nat) :
    Sendable parts Within Denotes upload
      (ofOutcome ((self.enqueued maxUploadSize).dequeueAndDoUpload parts)) := by
  apply (dequeueAndDoUpload_housekept parts (self.enqueued maxUploadSize)).keeps
  · exact fun hstep => housekeeping hcache hstep
  · exact h.same ⟨rfl, rfl, rfl, rfl, rfl, rfl, rfl⟩

end Sendable

theorem sendable_uploadInvariant (hcache : ConfinedCache parts.cache Within Denotes) :
    UploadInvariant parts (fun _ _ => True) (Sendable parts Within Denotes) where
  same := fun hsame h => h.same hsame
  current := fun h => h.current _ rfl
  recorded := fun h _ => h.bufferEvent _
  housekeeping := fun hstep h => h.housekeeping hcache hstep
  requested := fun _ h _ => h.dequeued hcache gMaxsize
  timerFired := by
    intro upload self _ h _
    have hreloaded := h.withProvider hcache self.permissionsProvider.getEnvironment.2.1
      self.permissionsProvider.getEnvironment.2.2
    exact hreloaded.dequeued hcache maxRequestPayload
  notStarted := fun h => h.createRequestBody hcache _ _
  started := by
    intro self next uploadTask request h hbody
    have hbuilt := h.createRequestBody hcache uploadTask true
    have htoken := h.token hcache (show (self.createRequestBody parts uploadTask true).1 =
      some request by rw [hbody])
    rw [hbody] at hbuilt htoken
    apply Sendable.log
    refine ⟨hbuilt.buffered, hbuilt.cached, ?_, ?_⟩
    · intro uploadTask hmem
      rw [Option.mem_some.mp hmem]
    · intro uploadTask hmem _
      rw [← Option.mem_some.mp hmem]
      exact htoken
  retried := by
    intro uploadTask self attemptNum h
    refine ⟨h.buffered, h.cached, ?_, ?_⟩
    · intro retried hmem
      rw [← Option.mem_some.mp hmem]
      exact h.current uploadTask rfl
    · intro retried hmem
      rw [← Option.mem_some.mp hmem]
      exact h.live uploadTask rfl
  sentAgain := fun h _ _ _ => h.log _
  acknowledged := fun h hlive hremove => h.acknowledged hcache hlive hremove
  ended := fun h => h.ended
  finished := fun _ _ h =>
    ⟨h.buffered, h.cached, (fun _ hmem => by cases hmem), fun _ hmem => by cases hmem⟩

/-! ## 3. Requests -/

variable {Contents : κ → List ε → Prop} {fits : List ε → List ε → Nat} {token : List ε → Nat}

/-- A read changes nothing and answers the longest prefix that the budget covers. -/
def ReadsLongestPrefix (parts : DaemonParts κ ε) (Contents : κ → List ε → Prop)
    (token : List ε → Nat) : Prop :=
  ∀ cache contents maxBytes, Contents cache contents →
    parts.cache.read cache maxBytes =
      (.ok (takeWithin parts.cost maxBytes contents,
        token (takeWithin parts.cost maxBytes contents)), cache)

/-- A request has the longest prefix of what waits that it may hold. -/
theorem createRequestBody_eq_takeWithin (hlaws : LawfulCache parts.cache Contents fits token)
    (hreads : ReadsLongestPrefix parts Contents token) {contents : List ε}
    (hcontents : Contents self.persistentCache contents) (uploadTask : UploadTask ε)
    (hsize : uploadTask.maxUploadSize < 2 ^ 64) {stored : List ε}
    (hstored : stored = takeWithin parts.cost uploadTask.maxUploadSize contents) :
    ∃ buffered, stored ++ buffered = takeWithin parts.cost uploadTask.maxUploadSize
        (contents ++ self.buffer.variantArray) ∧
      self.createRequestBody parts uploadTask true =
        (some { uploadTask with
          requestBody := stored ++ buffered, token := token stored,
          numStoredEvents := stored.length, numBufferEvents := buffered.length, attemptNum := 0 },
        self) := by
  obtain ⟨more, hsplit⟩ := takeWithin_isPrefix parts.cost uploadTask.maxUploadSize contents
  have hmore := hlaws.hasMore (hsplit.symm ▸ hcontents)
  have hle := sum_takeWithin_le parts.cost uploadTask.maxUploadSize contents
  unfold createRequestBody addStoredEvents
  rw [hreads _ _ _ hcontents]
  rw [← hstored] at hsplit hmore hle ⊢
  refine ⟨_, ?_, rfl⟩
  simp only
  by_cases hall : (contents.map parts.cost).sum ≤ uploadTask.maxUploadSize
  · have heq : stored = contents := hstored.trans (takeWithin_of_sum_le hall)
    subst heq
    have hnone : more = [] := List.append_right_eq_self.mp hsplit
    have hexhausted : parts.cache.hasMore self.persistentCache (token stored) = false := by
      rw [hnone] at hmore
      exact Bool.eq_false_iff.mpr fun htrue => hmore.mp htrue rfl
    have hspace : (uploadTask.maxUploadSize + (2 ^ 64 - (stored.map parts.cost).sum % 2 ^ 64)) %
        2 ^ 64 = uploadTask.maxUploadSize - (stored.map parts.cost).sum := by
      omega
    rw [hexhausted, hspace, Bool.not_false, if_pos rfl, takeWithin_append_of_le hall]
  · have hlt : uploadTask.maxUploadSize < (contents.map parts.cost).sum := Nat.not_le.mp hall
    have hrest : more ≠ [] := by
      intro hnil
      rw [hnil, List.append_nil] at hsplit
      apply hall
      rw [← hsplit]
      exact hle
    rw [hmore.mpr hrest, takeWithin_append_of_lt hlt, ← hstored]
    exact List.append_nil _

/-- What waits first fits into a request of the size that the timer asks for. -/
theorem requestBody_ne_nil (hlaws : LawfulCache parts.cache Contents fits token)
    (hreads : ReadsLongestPrefix parts Contents token) {contents : List ε}
    (hcontents : Contents self.persistentCache contents)
    (hcached : ∀ event ∈ contents, parts.cost event ≤ maxRequestPayload)
    (hbuffered : self.buffer.WithinLimits parts.cost)
    (hwaiting : contents ++ self.buffer.variantArray ≠ []) {uploadTask : UploadTask ε}
    (hsize : uploadTask.maxUploadSize = maxRequestPayload) :
    ∃ request, (self.createRequestBody parts uploadTask true).1 = some request ∧
      request.requestBody ≠ [] := by
  have hlt : uploadTask.maxUploadSize < 2 ^ 64 := by rw [hsize]; decide
  obtain ⟨buffered, hbody, hcreated⟩ :=
    createRequestBody_eq_takeWithin hlaws hreads hcontents uploadTask hlt rfl
  rw [hcreated]
  refine ⟨_, rfl, ?_⟩
  have hsmall : ∀ event ∈ contents ++ self.buffer.variantArray,
      parts.cost event ≤ maxRequestPayload := by
    intro event hevent
    cases List.mem_append.mp hevent with
    | inl hstored => exact hcached event hstored
    | inr hnew => exact hbuffered.small event hnew
  show takeWithin parts.cost uploadTask.maxUploadSize contents ++ buffered ≠ []
  rw [hbody, hsize]
  generalize contents ++ self.buffer.variantArray = waiting at hwaiting hsmall
  cases waiting with
  | nil => exact absurd rfl hwaiting
  | cons event waiting =>
    rw [takeWithin, if_pos (hsmall event List.mem_cons_self)]
    exact List.cons_ne_nil _ _

end EmerDaemon

/-! ## 4. Runs with restarts -/

/-- How one daemon ends and the next one starts. -/
structure Restart (ε : Type*) where
  /-- `emer_daemon_finalize` flushes the buffer; a process that is killed does not. -/
  finalized : Bool
  cacheSize : Nat
  /-- The version file or the boot-offset file made the new cache purge its variants. -/
  discarded : Bool
  permissionsProvider : EmerPermissionsProvider
  maxBytesBuffered : Nat
  pastEvents : List ε

inductive LifeEvent (ε : Type*) where
  | daemon (event : DaemonEvent ε)
  | restart (restart : Restart ε)

/-- The sizes that a daemon is configured with: offsets into the cache are `goffset`s, and the byte
count of the buffer does not overflow. -/
def LifeEvent.Admissible {ε : Type*} : LifeEvent ε → Prop
  | .daemon _ => True
  | .restart next =>
    1 ≤ next.cacheSize ∧ next.cacheSize < 2 ^ 63 ∧
      next.maxBytesBuffered + maxRequestPayload < 2 ^ 64

instance {ε : Type*} : ∀ event : LifeEvent ε, Decidable (LifeEvent.Admissible event)
  | .daemon _ => isTrue trivial
  | .restart _ => inferInstanceAs (Decidable (_ ∧ _ ∧ _))

namespace EmerDaemon

variable (glib : VariantLibrary) (order : ByteOrder)

/-- The daemon over a persistent cache none of whose file operations fails. -/
def storingParts (parsesPingSocket parsesHttpRequestUrl : Text → Bool) :
    DaemonParts EmerPersistentCache (StorableVariant glib order) where
  cost := fun event => emerPersistentCacheCost event.variant
  cache := EmerPersistentCache.ops glib order
  parsesPingSocket := parsesPingSocket
  parsesHttpRequestUrl := parsesHttpRequestUrl

variable {glib order}
variable (parts : DaemonParts EmerPersistentCache (StorableVariant glib order))
  (uninitialised : Nat → UInt8)

/-- The cache that a daemon leaves when it ends. -/
def closedCache (finalized : Bool) :
    Outcome EmerPersistentCache (StorableVariant glib order) → EmerPersistentCache
  | .ok self =>
    if finalized then (self.flushToPersistentCache parts).persistentCache else self.persistentCache
  -- an aborted process does not get there
  | .error (_, self) => self.persistentCache

/-- Without a result when no cache can be created, which ends the process for good. -/
def restarted (outcome : Outcome EmerPersistentCache (StorableVariant glib order))
    (restart : Restart (StorableVariant glib order)) :
    Option (Outcome EmerPersistentCache (StorableVariant glib order)) :=
  match (closedCache parts restart.finalized outcome).reopen restart.cacheSize uninitialised
      restart.discarded with
  | .error _ => none
  | .ok cache =>
    some (.ok (new parts restart.permissionsProvider cache restart.maxBytesBuffered
      restart.pastEvents))

def lifeStep (outcome : Option (Outcome EmerPersistentCache (StorableVariant glib order))) :
    LifeEvent (StorableVariant glib order) →
      Option (Outcome EmerPersistentCache (StorableVariant glib order))
  | .daemon event => outcome.map fun outcome => step parts outcome event
  | .restart restart => outcome.bind fun outcome => restarted parts uninitialised outcome restart

/-- The byte count is right and within its limit, whatever waits fits into a request, and so a
request of the size that the timer asks for has an event if any waits. -/
def NeverWedged (daemon : EmerDaemon EmerPersistentCache (StorableVariant glib order)) : Prop :=
  daemon.buffer.numBytesBuffered = (daemon.buffer.variantArray.map parts.cost).sum ∧
    daemon.buffer.numBytesBuffered ≤ daemon.buffer.maxBytesBuffered ∧
    (∀ event ∈ daemon.buffer.variantArray, parts.cost event ≤ maxRequestPayload) ∧
    ∃ (capacity : Nat) (contents : List (StorableVariant glib order)),
      EmerPersistentCache.SyncedContents capacity daemon.persistentCache contents ∧
      (∀ event ∈ contents, event.elem.length ≤ maxRequestPayload) ∧
      (contents ++ daemon.buffer.variantArray ≠ [] →
        ∀ uploadTask : UploadTask (StorableVariant glib order),
          uploadTask.maxUploadSize = maxRequestPayload →
          ∃ request, (daemon.createRequestBody parts uploadTask true).1 = some request ∧
            request.requestBody ≠ [])

open EmerPersistentCache

/-- The state between two events, over a cache of some capacity. -/
def LifeInvariant (daemon : EmerDaemon EmerPersistentCache (StorableVariant glib order)) : Prop :=
  ∃ capacity, capacity < 2 ^ 63 ∧ InFlight (Sendable parts
    (LawfulCache.AllOf (@SyncedContents glib order capacity))
    (LawfulCache.TokenOf (@SyncedContents glib order capacity) tokenFor)) daemon

section Runs

variable {parsesPingSocket parsesHttpRequestUrl : Text → Bool}

theorem storingParts_readsLongestPrefix (hswap : glib.SwapKeepsSize) (capacity : Nat) :
    ReadsLongestPrefix (storingParts glib order parsesPingSocket parsesHttpRequestUrl)
      (SyncedContents capacity) tokenFor := by
  intro cache contents maxBytes h
  have hcost : (storingParts glib order parsesPingSocket parsesHttpRequestUrl).cost =
      fun event => event.elem.length := funext fun event => (event.length_elem hswap).symm
  rw [hcost]
  exact h.contents.read_eq maxBytes

theorem LifeInvariant.neverWedged (hswap : glib.SwapKeepsSize)
    {daemon : EmerDaemon EmerPersistentCache (StorableVariant glib order)}
    (h : LifeInvariant (storingParts glib order parsesPingSocket parsesHttpRequestUrl) daemon) :
    NeverWedged (storingParts glib order parsesPingSocket parsesHttpRequestUrl) daemon := by
  obtain ⟨capacity, hcapacity, upload, -, hsendable⟩ := h
  obtain ⟨contents, hcontents, hcached⟩ := hsendable.cached
  have hbuffered := hsendable.buffered
  refine ⟨hbuffered.counted, hbuffered.bounded, hbuffered.small, capacity, contents, hcontents, ?_,
    ?_⟩
  · intro event hevent
    rw [event.length_elem hswap]
    exact hcached event hevent
  · intro hwaiting uploadTask hsize
    exact requestBody_ne_nil (lawful_synced hcapacity)
      (storingParts_readsLongestPrefix hswap capacity) hcontents hcached hbuffered hwaiting hsize

/-- A daemon that starts over a cache whose events fit into a request. -/
theorem lifeInvariant_new {capacity : Nat} (hcapacity : capacity < 2 ^ 63)
    {cache : EmerPersistentCache} {contents : List (StorableVariant glib order)}
    (hcontents : SyncedContents capacity cache contents)
    (hcached : ∀ event ∈ contents, emerPersistentCacheCost event.variant ≤ maxRequestPayload)
    {maxBytesBuffered : Nat} (hlimit : maxBytesBuffered + maxRequestPayload < 2 ^ 64)
    (permissionsProvider : EmerPermissionsProvider)
    (pastEvents : List (StorableVariant glib order)) :
    LifeInvariant (storingParts glib order parsesPingSocket parsesHttpRequestUrl)
      (new (storingParts glib order parsesPingSocket parsesHttpRequestUrl) permissionsProvider cache
        maxBytesBuffered pastEvents) := by
  refine ⟨capacity, hcapacity, ?_⟩
  apply (sendable_uploadInvariant (lawful_synced hcapacity).confined).inFlight_new
  refine ⟨⟨rfl, Nat.zero_le _, (fun _ hevent => by cases hevent), hlimit⟩,
    ⟨contents, hcontents, hcached⟩, (fun _ hmem => by cases hmem), fun _ hmem => by cases hmem⟩

/-- **Step lemma.** -/
theorem LifeInvariant.lifeStep
    {outcome : Outcome EmerPersistentCache (StorableVariant glib order)}
    (h : LifeInvariant (storingParts glib order parsesPingSocket parsesHttpRequestUrl)
      (ofOutcome outcome))
    {event : LifeEvent (StorableVariant glib order)} (hadmissible : event.Admissible) :
    ∃ next, EmerDaemon.lifeStep (storingParts glib order parsesPingSocket parsesHttpRequestUrl)
        uninitialised (some outcome) event = some next ∧
      LifeInvariant (storingParts glib order parsesPingSocket parsesHttpRequestUrl)
        (ofOutcome next) := by
  obtain ⟨capacity, hcapacity, hflight⟩ := h
  have hconfined := (@lawful_synced glib order capacity hcapacity).confined
  cases event with
  | daemon event =>
    refine ⟨_, rfl, capacity, hcapacity, ?_⟩
    cases outcome with
    | error abort => exact hflight
    | ok self =>
      exact (sendable_uploadInvariant hconfined).handled (handle_handled _ self event) hflight
        trivial
  | restart restart =>
    obtain ⟨hpos, hsize, hlimit⟩ := hadmissible
    obtain ⟨upload, -, hsendable⟩ := hflight
    have hclosed : LawfulCache.AllOf (@SyncedContents glib order capacity)
        (closedCache (storingParts glib order parsesPingSocket parsesHttpRequestUrl)
          restart.finalized outcome)
        fun event => emerPersistentCacheCost event.variant ≤ maxRequestPayload := by
      cases outcome with
      | error abort => exact hsendable.cached
      | ok self =>
        unfold closedCache
        simp only
        by_cases hfinalized : restart.finalized = true
        · rw [if_pos hfinalized]
          exact (hsendable.flush hconfined).cached
        · rw [if_neg hfinalized]
          exact hsendable.cached
    obtain ⟨contents, hcontents, hcached⟩ := hclosed
    obtain ⟨opened, kept, hopened, hkept, hsynced⟩ :=
      hcontents.reopen hpos hsize uninitialised restart.discarded
    have hrestarted : EmerDaemon.lifeStep
        (storingParts glib order parsesPingSocket parsesHttpRequestUrl) uninitialised (some outcome)
        (.restart restart) = some (.ok (new
          (storingParts glib order parsesPingSocket parsesHttpRequestUrl)
          restart.permissionsProvider opened restart.maxBytesBuffered restart.pastEvents)) := by
      show restarted _ uninitialised outcome restart = _
      unfold restarted
      rw [hopened]
    rw [hrestarted]
    exact ⟨_, rfl, lifeInvariant_new hsize hsynced
      (fun event hevent => hcached event (hkept.subset hevent)) hlimit _ _⟩

/-- Over a cache whose events fit into a request, through any recording, flushing, uploading and
restarting, the timer's requests never come to nothing while an event waits. -/
theorem uploads_never_wedged (glib : VariantLibrary) (order : ByteOrder)
    (hswap : glib.SwapKeepsSize) (parsesPingSocket parsesHttpRequestUrl : Text → Bool)
    (uninitialised : Nat → UInt8) {capacity : Nat} (hcapacity : capacity < 2 ^ 63)
    {cache : EmerPersistentCache} {contents : List (StorableVariant glib order)}
    (hcontents : SyncedContents capacity cache contents)
    (hcached : ∀ event ∈ contents, emerPersistentCacheCost event.variant ≤ maxRequestPayload)
    {maxBytesBuffered : Nat} (hlimit : maxBytesBuffered + maxRequestPayload < 2 ^ 64)
    (permissionsProvider : EmerPermissionsProvider)
    (pastEvents : List (StorableVariant glib order))
    {events : List (LifeEvent (StorableVariant glib order))}
    (hevents : ∀ event ∈ events, event.Admissible) :
    Throughout
      (lifeStep (storingParts glib order parsesPingSocket parsesHttpRequestUrl) uninitialised)
      (fun outcome => ∃ reached, outcome = some reached ∧
        NeverWedged (storingParts glib order parsesPingSocket parsesHttpRequestUrl)
          (ofOutcome reached))
      (some (.ok (new (storingParts glib order parsesPingSocket parsesHttpRequestUrl)
        permissionsProvider cache maxBytesBuffered pastEvents))) events := by
  have hstart : ∃ reached, some (.ok (new
        (storingParts glib order parsesPingSocket parsesHttpRequestUrl) permissionsProvider cache
        maxBytesBuffered pastEvents)) = some reached ∧
      LifeInvariant (storingParts glib order parsesPingSocket parsesHttpRequestUrl)
        (ofOutcome reached) :=
    ⟨_, rfl, lifeInvariant_new hcapacity hcontents hcached hlimit _ _⟩
  have hlife := @throughout_of_step _ _
    (lifeStep (storingParts glib order parsesPingSocket parsesHttpRequestUrl) uninitialised)
    (fun _ event => event.Admissible)
    (fun outcome => ∃ reached, outcome = some reached ∧
      LifeInvariant (storingParts glib order parsesPingSocket parsesHttpRequestUrl)
        (ofOutcome reached)) (by
      intro outcome event hreached hadmissible
      obtain ⟨reached, rfl, h⟩ := hreached
      exact h.lifeStep uninitialised hadmissible) _ events hstart
    (fun pre event hpre => hevents event (hpre.subset (List.mem_append_right _
      (List.mem_singleton_self event))))
  refine hlife.mono ?_
  intro outcome hreached
  obtain ⟨reached, hsome, h⟩ := hreached
  exact ⟨reached, hsome, h.neverWedged hswap⟩

end Runs

/-- A cache of 256 bytes, without an event, whose metadata file says so. -/
def smallSyncedCache : EmerPersistentCache :=
  let keyFile := ((KeyFile.empty.setUint64 metadataGroupName maxSizeKey 256).setUint64
    metadataGroupName sizeKey 0).setInt64 metadataGroupName headKey 0
  ⟨⟨⟨some [], .parsed keyFile⟩, keyFile, [], 256, 0, 0⟩⟩

theorem smallSyncedCache_empty {glib : VariantLibrary} {order : ByteOrder} :
    SyncedContents 256 smallSyncedCache ([] : List (StorableVariant glib order)) where
  contents := ⟨rfl, [], holds_empty (by decide) (by decide) (by decide)⟩
  synced := ⟨rfl, describes_setSizeHead (by decide) (by decide) (by decide)⟩

/-- A singular event of 43 bytes. -/
def smallEvent : StorableVariant eventVariants .little := storedSingular 7

/-- An event is recorded, asked for by the timer, kept over a restart, and asked for again. -/
def restartedRun : List (LifeEvent (StorableVariant eventVariants .little)) :=
  [.daemon (.recordEvent smallEvent), .daemon .uploadTimer, .daemon (.canReach false .none),
    .restart ⟨true, 128, false, emerPermissionsProviderNew (.parsed sampleConfigFile) none, 100000,
      []⟩,
    .daemon .uploadTimer, .daemon (.canReach true .none)]

theorem uploads_never_wedged_restartedRun :
    Throughout
      (lifeStep (storingParts eventVariants .little (fun _ => true) fun _ => true) fun _ => 0)
      (fun outcome => ∃ reached, outcome = some reached ∧
        NeverWedged (storingParts eventVariants .little (fun _ => true) fun _ => true)
          (ofOutcome reached))
      (some (.ok (new (storingParts eventVariants .little (fun _ => true) fun _ => true)
        (emerPermissionsProviderNew (.parsed sampleConfigFile) none) smallSyncedCache 100000 [])))
      restartedRun :=
  uploads_never_wedged eventVariants .little eventVariants_lawful.swapKeepsSize (fun _ => true)
    (fun _ => true) (fun _ => 0) (by decide) smallSyncedCache_empty
    (fun _ hevent => by cases hevent) (by decide)
    (emerPermissionsProviderNew (.parsed sampleConfigFile) none) [] (by decide)

end EmerDaemon

end EventRecorder
