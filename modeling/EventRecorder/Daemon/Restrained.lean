import EventRecorder.Daemon.CacheLaws
import EventRecorder.Daemon.Recorder
import EventRecorder.Daemon.UploadInFlight

/-!
# The upload machine while recording is disabled

An opt-out empties the buffer and the cache.  Until recording is enabled again nothing is put into
them, and an upload that was under way is cancelled, so that its response removes nothing either.
-/

namespace EventRecorder

open Theory

variable {κ ε : Type*} {Contents : κ → List ε → Prop} {fits : List ε → List ε → Nat}
  {token : List ε → Nat}

namespace EmerDaemon

variable {parts : DaemonParts κ ε} {self next : EmerDaemon κ ε} {seen : Nat}
  {excused settled : Prop} {upload : Option (UploadTask ε)}

/-- Buffer and cache are empty while recording is disabled, and it was disabled by an opt-out behind
the first `seen` actions unless that is excused. -/
structure Restrained (cost : ε → Nat) (Contents : κ → List ε → Prop) (token : List ε → Nat)
    (seen : Nat) (excused settled : Prop) (upload : Option (UploadTask ε))
    (daemon : EmerDaemon κ ε) : Prop where
  counted : daemon.buffer.Counted cost
  cached : ∃ contents, Contents daemon.persistentCache contents
  empty : settled → daemon.recordingEnabled = false →
    daemon.buffer.variantArray = [] ∧ Contents daemon.persistentCache []
  current : ∀ uploadTask ∈ upload, daemon.currentUpload = some uploadTask.taskId
  live : ∀ uploadTask ∈ upload, uploadTask.taskId ∉ daemon.cancelledUploads →
    LawfulCache.TokenOf Contents token daemon.persistentCache uploadTask.token
  grown : seen ≤ daemon.trace.length
  heard : daemon.recordingEnabled = false →
    excused ∨ (daemon.trace.drop seen).any Action.isOptedOut = true

namespace Restrained

theorem same (h : Restrained parts.cost Contents token seen excused settled upload self)
    (hsame : SameContents self next) :
    Restrained parts.cost Contents token seen excused settled upload next := by
  obtain ⟨hcurrent, hbuffer, hrecording, -, hcache, hcancelled, htrace⟩ := hsame
  constructor
  · rw [hbuffer]
    exact h.counted
  · rw [hcache]
    exact h.cached
  · rw [hrecording, hbuffer, hcache]
    exact h.empty
  · rw [hcurrent]
    exact h.current
  · rw [hcancelled, hcache]
    exact h.live
  · rw [htrace]
    exact h.grown
  · rw [hrecording, htrace]
    exact h.heard

theorem ended (h : Restrained parts.cost Contents token seen excused settled upload self) :
    Restrained parts.cost Contents token seen excused settled none self :=
  ⟨h.counted, h.cached, h.empty, by simp, by simp, h.grown, h.heard⟩

/-- What has been heard once stays in the trace. -/
theorem any_drop_append {trace : List (Action ε)} (actions : List (Action ε))
    (h : (trace.drop seen).any Action.isOptedOut = true) :
    ((trace ++ actions).drop seen).any Action.isOptedOut = true := by
  rw [List.drop_append, List.any_append, h, Bool.true_or]

theorem log (h : Restrained parts.cost Contents token seen excused settled upload self)
    (action : Action ε) :
    Restrained parts.cost Contents token seen excused settled upload (self.log action) := by
  refine ⟨h.counted, h.cached, h.empty, h.current, h.live, ?_, fun hdisabled => ?_⟩
  · show seen ≤ (self.trace ++ [action]).length
    rw [List.length_append]
    exact Nat.le_add_right_of_le h.grown
  · exact (h.heard hdisabled).imp_right (any_drop_append [action])

theorem bufferEvent (h : Restrained parts.cost Contents token seen excused settled upload self)
    (hrecording : self.recordingEnabled = true) (event : ε) :
    Restrained parts.cost Contents token seen excused settled upload
      (self.bufferEvent parts event) := by
  have henabled : ¬ self.recordingEnabled = false := by simp [hrecording]
  rw [bufferEvent_eq]
  refine ⟨h.counted.bufferEvent event, h.cached, fun _ hdisabled => absurd hdisabled henabled,
    h.current, h.live, ?_, fun hdisabled => absurd hdisabled henabled⟩
  show seen ≤ (self.trace ++ _).length
  rw [List.length_append]
  exact Nat.le_add_right_of_le h.grown

/-- Being asked to flush while recording is disabled does nothing. -/
theorem flush_of_disabled (hdisabled : self.recordingEnabled = false) :
    self.flushToPersistentCache parts = self := by
  rw [flushToPersistentCache, EventBuffer.flushToPersistentCache, if_pos (by simp [hdisabled])]

theorem counted_flush (h : self.buffer.Counted parts.cost) :
    (self.flushToPersistentCache parts).buffer.Counted parts.cost := by
  rcases flushToPersistentCache_cases parts self with hflush | ⟨-, hflush⟩ |
      ⟨numEvents, buffer, -, hremove, hflush⟩
  · rwa [hflush]
  · rw [hflush]
    exact h
  · rw [hflush]
    exact h.removeEvents hremove

variable (hcache : LawfulCache parts.cache Contents fits token)

include hcache

theorem flush (h : Restrained parts.cost Contents token seen excused settled upload self) :
    Restrained parts.cost Contents token seen excused settled upload
      (self.flushToPersistentCache parts) := by
  cases hrecording : self.recordingEnabled with
  | false =>
    rw [flush_of_disabled hrecording]
    exact h
  | true =>
    have hcounted := counted_flush h.counted
    obtain ⟨contents, hcontents⟩ := h.cached
    obtain ⟨-, hstored⟩ := hcache.store self.buffer.variantArray hcontents
    have hlive : ∀ uploadTask ∈ upload, uploadTask.taskId ∉ self.cancelledUploads →
        LawfulCache.TokenOf Contents token
          (parts.cache.store self.persistentCache self.buffer.variantArray).2 uploadTask.token :=
      fun uploadTask hmem hlive => hcache.confined.tokenStored (h.live uploadTask hmem hlive)
    have henabled : ¬ self.recordingEnabled = false := by simp [hrecording]
    rcases flushToPersistentCache_cases parts self with hflush | ⟨-, hflush⟩ |
        ⟨numEvents, buffer, -, -, hflush⟩
    · rwa [hflush]
    · rw [hflush] at hcounted ⊢
      exact ⟨hcounted, ⟨_, hstored⟩, fun _ hdisabled => absurd hdisabled henabled, h.current, hlive,
        h.grown, h.heard⟩
    · rw [hflush] at hcounted ⊢
      exact ⟨hcounted, ⟨_, hstored⟩, fun _ hdisabled => absurd hdisabled henabled, h.current, hlive,
        h.grown, h.heard⟩

/-- A request is put together: its events stay where they are. -/
theorem createRequestBody
    (h : Restrained parts.cost Contents token seen excused settled none self)
    (uploadTask : UploadTask ε) (timestamps : Bool) :
    Restrained parts.cost Contents token seen excused settled none
        (self.createRequestBody parts uploadTask timestamps).2 ∧
      ∀ request, (self.createRequestBody parts uploadTask timestamps).1 = some request →
        LawfulCache.TokenOf Contents token
          (self.createRequestBody parts uploadTask timestamps).2.persistentCache
          request.token := by
  obtain ⟨contents, hcontents⟩ := h.cached
  obtain ⟨stored, ⟨more, hsplit⟩, hread, hsame⟩ := hcache.read uploadTask.maxUploadSize hcontents
  have hadded : self.addStoredEvents parts uploadTask.maxUploadSize =
      (stored, token stored, !parts.cache.hasMore
          (parts.cache.read self.persistentCache uploadTask.maxUploadSize).2 (token stored),
        { self with persistentCache :=
            (parts.cache.read self.persistentCache uploadTask.maxUploadSize).2 }) := by
    rcases addStoredEvents_cases parts self uploadTask.maxUploadSize with
      ⟨variants, readToken, hok, hadded⟩ | ⟨error, cache, herror, -, -⟩
    · rw [hread] at hok
      cases hok
      exact hadded
    · rw [hread] at herror
      cases herror
  rw [createRequestBody_snd, hadded]
  refine ⟨⟨h.counted, ⟨contents, hsame⟩, ?_, by simp, by simp, h.grown, h.heard⟩, ?_⟩
  · intro hsettled hdisabled
    obtain ⟨hbuffer, hempty⟩ := h.empty hsettled hdisabled
    obtain rfl := hcache.unique hcontents hempty
    exact ⟨hbuffer, hsame⟩
  · intro request hrequest
    obtain ⟨buffered, -, -, rfl⟩ := createRequestBody_eq_some hrequest
    refine ⟨stored, more, ?_, ?_⟩
    · rw [hsplit]
      exact hsame
    · rw [hadded]

/-- The events of an upload that was not cancelled are removed. -/
theorem acknowledged {uploadTask : UploadTask ε} {outcome : Outcome κ ε}
    (h : Restrained parts.cost Contents token seen excused settled (some uploadTask) self)
    (hlive : uploadTask.taskId ∉ self.cancelledUploads)
    (hremove : (self.acknowledged parts uploadTask).removeEvents parts uploadTask.numBufferEvents =
      outcome) :
    Restrained parts.cost Contents token seen excused settled none (ofOutcome outcome) := by
  obtain ⟨stored, more, hcontents, htoken⟩ := h.live uploadTask rfl hlive
  have hremoved := hcache.remove hcontents
  rw [htoken] at hremoved
  have hlog := h.log (.acknowledged uploadTask.requestBody)
  have hacknowledged : Restrained parts.cost Contents token seen excused settled none
      (self.acknowledged parts uploadTask) := by
    refine ⟨h.counted, ⟨more, hremoved⟩, ?_, by simp, by simp, hlog.grown, hlog.heard⟩
    intro hsettled hdisabled
    obtain ⟨hbuffer, hempty⟩ := h.empty hsettled hdisabled
    -- nothing was stored, so nothing is left
    obtain ⟨-, rfl⟩ := List.append_eq_nil_iff.mp (hcache.unique hcontents hempty)
    exact ⟨hbuffer, hremoved⟩
  cases outcome with
  | error abort =>
    obtain ⟨rfl, -⟩ := removeEvents_eq_error hremove
    exact hacknowledged
  | ok next =>
    obtain ⟨buffer, hbuffer, rfl⟩ := removeEvents_eq_ok hremove
    refine ⟨hacknowledged.counted.removeEvents hbuffer, hacknowledged.cached, ?_,
      hacknowledged.current, hacknowledged.live, hacknowledged.grown, hacknowledged.heard⟩
    intro hsettled hdisabled
    obtain ⟨harray, hempty⟩ := hacknowledged.empty hsettled hdisabled
    refine ⟨?_, hempty⟩
    show buffer.variantArray = []
    rw [(EventBuffer.removeEvents_eq_some hbuffer).2, harray, List.drop_nil]

/-! ## 2. Permissions -/

omit hcache in
theorem counted_emptied (h : self.buffer.Counted parts.cost) :
    (emptied parts self.buffer).Counted parts.cost := by
  obtain ⟨buffer, hremove⟩ : ∃ buffer,
      self.buffer.removeEvents parts.cost self.buffer.variantArray.length = some buffer :=
    EventBuffer.removeEvents_isSome (le_refl _)
  rw [emptied, hremove, Option.getD_some]
  exact h.removeEvents hremove

/-- A notification settles the state, and explains why recording is disabled. -/
theorem withProvider {excused' settled' : Prop}
    (h : Restrained parts.cost Contents token seen excused settled upload self)
    (provider : EmerPermissionsProvider) (notified : List ProviderProperty)
    (hnotified : .daemonEnabled ∈ notified ∨ (excused → excused') ∧ (settled' → settled)) :
    Restrained parts.cost Contents token seen excused' settled' upload
      (self.withProvider parts provider notified) := by
  rcases self.withProvider_cases parts provider notified with ⟨recording, hrecording, heq⟩ | heq
  · rw [heq]
    -- recording is on, or nothing has changed
    have hkept : recording = false → self.recordingEnabled = false ∧
        (excused → excused') ∧ (settled' → settled) := by
      intro hdisabled
      rcases hrecording with henabled | ⟨hsilent, hsame⟩
      · rw [henabled] at hdisabled
        cases hdisabled
      · exact ⟨hsame.symm.trans hdisabled, hnotified.resolve_left hsilent⟩
    refine ⟨h.counted, h.cached, ?_, h.current, h.live, h.grown, ?_⟩
    · intro hsettled hdisabled
      obtain ⟨hself, -, hsettle⟩ := hkept hdisabled
      exact h.empty (hsettle hsettled) hself
    · intro hdisabled
      obtain ⟨hself, hexcuse, -⟩ := hkept hdisabled
      exact (h.heard hself).imp_left hexcuse
  · rw [heq]
    obtain ⟨contents, hcontents⟩ := h.cached
    have hempty := hcache.removeAll hcontents
    refine ⟨counted_emptied h.counted, ⟨[], hempty⟩, fun _ _ => ⟨variantArray_emptied _, hempty⟩,
      h.current, ?_, ?_, fun _ => ?_⟩
    -- the upload in flight is the current one, which is cancelled now
    · intro uploadTask hmem hlive
      apply absurd _ hlive
      show uploadTask.taskId ∈ self.currentUpload.toList ++ self.cancelledUploads
      rw [h.current uploadTask hmem]
      exact List.mem_cons_self
    · show seen ≤ (self.trace ++ [Action.optedOut]).length
      rw [List.length_append]
      exact Nat.le_add_right_of_le h.grown
    · right
      show ((self.trace ++ [Action.optedOut]).drop seen).any Action.isOptedOut = true
      rw [List.drop_append_of_le_length h.grown, List.any_append]
      exact Bool.or_true _

/-- Reading the environment notifies the permission whatever the file holds. -/
theorem getEnvironment
    (h : Restrained parts.cost Contents token seen excused settled upload self) :
    Restrained parts.cost Contents token seen False True upload (self.getEnvironment parts) :=
  h.withProvider hcache _ _ (.inl self.permissionsProvider.daemonEnabled_mem_getEnvironment)

theorem housekeeping {mayFlush : Prop} (hstep : Housekeeping parts mayFlush self next)
    (h : Restrained parts.cost Contents token seen excused settled upload self) :
    Restrained parts.cost Contents token seen excused settled upload next := by
  cases hstep with
  | flush => exact h.flush hcache
  | provider provider notified =>
    exact h.withProvider hcache provider notified (.inr ⟨id, id⟩)
  | returned taskId result => exact h.log (.returned taskId result)
  | dequeued rest => exact h.same ⟨rfl, rfl, rfl, rfl, rfl, rfl, rfl⟩
  | check => exact h.same ⟨rfl, rfl, rfl, rfl, rfl, rfl, rfl⟩

theorem dequeued (h : Restrained parts.cost Contents token seen excused settled upload self)
    (maxUploadSize : Nat) :
    Restrained parts.cost Contents token seen excused settled upload
      (ofOutcome ((self.enqueued maxUploadSize).dequeueAndDoUpload parts)) := by
  apply (dequeueAndDoUpload_housekept parts (self.enqueued maxUploadSize)).keeps
  · exact fun hstep => housekeeping hcache hstep
  · exact h.same ⟨rfl, rfl, rfl, rfl, rfl, rfl, rfl⟩

end Restrained

variable (seen excused settled) in
theorem restrained_uploadInvariant (hcache : LawfulCache parts.cache Contents fits token) :
    UploadInvariant parts (fun _ _ => True)
      (Restrained parts.cost Contents token seen excused settled) where
  same := fun hsame h => h.same hsame
  current := fun h => h.current _ rfl
  recorded := fun h hrecording => h.bufferEvent hrecording _
  housekeeping := fun hstep h => h.housekeeping hcache hstep
  requested := fun _ h _ => h.dequeued hcache gMaxsize
  timerFired := by
    intro upload self hupload h hok
    have hreloaded := h.withProvider hcache self.permissionsProvider.getEnvironment.2.1
      self.permissionsProvider.getEnvironment.2.2 (.inr ⟨id, id⟩)
    exact hreloaded.dequeued hcache maxRequestPayload
  notStarted := fun h => (h.createRequestBody hcache _ _).1
  started := by
    intro self next uploadTask request h hbody
    obtain ⟨hbuilt, hrequest⟩ := h.createRequestBody hcache uploadTask true
    rw [hbody] at hbuilt hrequest
    have hstarted : Restrained parts.cost Contents token seen excused settled (some request)
        { next with currentUpload := some request.taskId } := by
      refine ⟨hbuilt.counted, hbuilt.cached, hbuilt.empty, ?_, ?_, hbuilt.grown, hbuilt.heard⟩
      · intro uploadTask hmem
        rw [Option.mem_some.mp hmem]
      · intro uploadTask hmem _
        rw [← Option.mem_some.mp hmem]
        exact hrequest request rfl
    exact hstarted.log _
  retried := by
    intro uploadTask self attemptNum h
    refine ⟨h.counted, h.cached, h.empty, ?_, ?_, h.grown, h.heard⟩
    · intro retried hmem
      rw [← Option.mem_some.mp hmem]
      exact h.current uploadTask rfl
    · intro retried hmem
      rw [← Option.mem_some.mp hmem]
      exact h.live uploadTask rfl
  sentAgain := fun h _ _ _ => h.log _
  acknowledged := fun h hlive hremove => h.acknowledged hcache hlive hremove
  ended := fun h => h.ended
  finished := fun self cancelledUploads h =>
    ⟨h.counted, h.cached, h.empty, by simp, by simp, h.grown, h.heard⟩

end EmerDaemon

end EventRecorder
