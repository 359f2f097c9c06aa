import EventRecorder.Aggregate.CounterLedger
import EventRecorder.Aggregate.RegistrySimulation
import EventRecorder.Daemon.Delivery
import EventRecorder.Daemon.HoldsNothing
import EventRecorder.Daemon.Service

/-!
# What becomes of the time that clients measure

A timer's seconds are stored in the tally, are taken out of it as part of a row, and become an event
that the upload machine is told to record.  The daemon is watched with a ledger beside its tally:
the ledger takes what the tally takes, and the rows that it has handed over are those that were
offered to the upload machine, each once and in order.
-/

namespace EventRecorder

open Theory

/-! ## 1. What is accepted -/

/-- The event that the daemon is told to record. -/
def DaemonEvent.recorded? {ε : Type*} : DaemonEvent ε → Option ε
  | .recordEvent event => some event
  | _ => none

namespace EmerDaemon

variable {κ ε : Type*} {parts : DaemonParts κ ε} {self next : EmerDaemon κ ε} {mayFlush : Prop}

/-- No event is accepted on the way. -/
def SameAccepted (before after : EmerDaemon κ ε) : Prop :=
  acceptedIn after.trace = acceptedIn before.trace

theorem SameAccepted.log (h : SameAccepted self next) {action : Action ε}
    (hother : action.acceptedEvent? = none) : SameAccepted self (next.log action) := by
  show acceptedIn (next.trace ++ [action]) = _
  rw [acceptedIn_append, acceptedIn, acceptedIn, List.filterMap_cons_none hother,
    List.filterMap_nil, List.append_nil]
  exact h

theorem SameAccepted.createRequestBody (h : SameAccepted self next) (uploadTask : UploadTask ε)
    (timestamps : Bool) :
    SameAccepted self (next.createRequestBody parts uploadTask timestamps).2 := by
  obtain ⟨cache, hbuilt⟩ := createRequestBody_eq parts next uploadTask timestamps
  rw [hbuilt]
  exact h

theorem SameAccepted.housekeeping (h : SameAccepted self next) {later : EmerDaemon κ ε}
    (hstep : Housekeeping parts mayFlush next later) : SameAccepted self later := by
  cases hstep with
  | flush =>
    obtain ⟨cache, buffer, hflush⟩ := flushToPersistentCache_eq parts next
    rw [hflush]
    exact h
  | provider provider notified =>
    rcases next.withProvider_cases parts provider notified with ⟨recording, -, heq⟩ | heq
    · rw [heq]
      exact h
    · rw [heq]
      exact h.log rfl
  | returned taskId result => exact h.log rfl
  | dequeued rest => exact h
  | check => exact h

theorem SameAccepted.housekept (h : SameAccepted self next) {later : EmerDaemon κ ε}
    (hkept : Housekept parts mayFlush next later) : SameAccepted self later :=
  hkept.keeps (fun hstep hreached => hreached.housekeeping hstep) h

theorem SameAccepted.finish (h : SameAccepted self next) (taskId : Nat) (result : UploadResult) :
    SameAccepted self
      (ofOutcome ((next.log (.returned taskId result)).finishNetworkCallback parts)) := by
  have hfinished : SameAccepted self next.finished := h
  exact hfinished.housekept (finish_returned_housekept next taskId result)

theorem SameAccepted.sending (h : SameAccepted self next) {uploadTask : UploadTask ε}
    {fault : RequestFault} {outcome : Outcome κ ε}
    (hsending : Sending parts next uploadTask fault outcome) :
    SameAccepted self (ofOutcome outcome) :=
  hsending.keeps (I := SameAccepted self) (fun hstep hreached => hreached.housekeeping hstep) id
    (fun _ hreached => hreached) h

/-- Only an event to record is ever accepted. -/
theorem sameAccepted_handled {event : DaemonEvent ε} {outcome : Outcome κ ε}
    (h : Handled parts self event outcome) (hevent : event.recorded? = none) :
    SameAccepted self (ofOutcome outcome) := by
  have hself : SameAccepted self self := rfl
  cases h with
  | ignored hsends => exact hself
  | recorded hrecording => cases hevent
  | configured provider notified hsends =>
    exact hself.housekept (withProvider_housekept True self provider notified)
  | requested =>
    have hqueued : SameAccepted self (self.enqueued gMaxsize) := hself
    exact hqueued.housekept (dequeueAndDoUpload_housekept parts _)
  | timerFired =>
    have hreloaded : SameAccepted self (self.getEnvironment parts) :=
      hself.housekept (getEnvironment_housekept parts True self)
    have hqueued : SameAccepted self ((self.getEnvironment parts).enqueued maxRequestPayload) :=
      hreloaded
    exact hqueued.housekept (dequeueAndDoUpload_housekept parts _)
  | checkedWhileBusy hbusy => exact hself
  | checkedEmptyQueue hchecks hidle hqueue => exact hself
  | unreachableEmptyQueue hchecks hidle hqueue =>
    have hchecked : SameAccepted self self.checkCompleted := hself
    have hflushed : SameAccepted self (self.checkCompleted.flushToPersistentCache parts) :=
      hchecked.housekeeping (.flush self.checkCompleted trivial)
    exact hflushed.housekept (handleUploadFinished_housekept _)
  | @unreachable fault uploadTask rest hchecks hidle hqueue =>
    have hpopped : SameAccepted self (self.popped rest) := hself
    have hflushed : SameAccepted self ((self.popped rest).flushToPersistentCache parts) :=
      hpopped.housekeeping (.flush (self.popped rest) trivial)
    exact (hflushed.log rfl).housekept (handleUploadFinished_housekept _)
  | @noTimestamps uploadTask rest hchecks hidle hqueue =>
    have hpopped : SameAccepted self (self.popped rest) := hself
    exact ((hpopped.createRequestBody uploadTask false).log rfl).housekept
      (handleUploadFinished_housekept _)
  | @started fault uploadTask request rest entering outcome hchecks hidle hqueue hfault hbody
      hsending =>
    have hpopped : SameAccepted self (self.popped rest) := hself
    have hbuilt : SameAccepted self
        ((self.popped rest).createRequestBody parts uploadTask true).2 :=
      hpopped.createRequestBody uploadTask true
    rw [hbody] at hbuilt
    have hcurrent : SameAccepted self { entering with currentUpload := some request.taskId } :=
      hbuilt
    exact SameAccepted.sending (hcurrent.log rfl) hsending
  | @removedPastEnd taskId uploadTask abort hfind hlive hremove =>
    obtain ⟨rfl, -⟩ := removeEvents_eq_error hremove
    have hreceived : SameAccepted self (self.responseReceived uploadTask.taskId) := hself
    exact hreceived.log rfl
  | @uploaded taskId uploadTask removed hfind hlive hremove =>
    obtain ⟨buffer, -, rfl⟩ := removeEvents_eq_ok hremove
    have hreceived : SameAccepted self (self.responseReceived uploadTask.taskId) := hself
    have hremoved : SameAccepted self
        { self.acknowledged parts uploadTask with buffer := buffer } :=
      hreceived.log rfl
    have hflushed : SameAccepted self (({ self.acknowledged parts uploadTask with
        buffer := buffer } : EmerDaemon κ ε).flushToPersistentCache parts) :=
      hremoved.housekeeping (.flush _ trivial)
    exact hflushed.finish uploadTask.taskId .uploaded
  | @gaveUp taskId uploadTask response hfind hends hretry cancelledUploads result =>
    have hreset : SameAccepted self
        { self.responseReceived taskId with cancelledUploads := cancelledUploads } := hself
    exact hreset.finish uploadTask.taskId result
  | retried hfind hlive hattempts => exact hself
  | @backoffGaveUp taskId uploadTask hfind =>
    have hover : SameAccepted self (self.backoffOver taskId) := hself
    exact hover.finish uploadTask.taskId .noTimestamps
  | @backoffSent taskId uploadTask fault outcome hfind hfault hsending =>
    have hover : SameAccepted self (self.backoffOver taskId) := hself
    exact SameAccepted.sending (hover.log rfl) hsending

/-- What is accepted while an event is handled is the event to record, if anything. -/
theorem acceptedIn_handle (self : EmerDaemon κ ε) (event : DaemonEvent ε) :
    (acceptedIn (ofOutcome (self.handle parts event)).trace).Sublist
      (acceptedIn self.trace ++ event.recorded?.toList) := by
  cases hrecorded : event.recorded? with
  | none =>
    have hsame := sameAccepted_handled (handle_handled parts self event) hrecorded
    rw [SameAccepted] at hsame
    rw [hsame]
    exact List.sublist_append_left _ _
  | some recorded =>
    obtain rfl : event = .recordEvent recorded := by
      cases event with
      | recordEvent event =>
        cases hrecorded
        rfl
      | _ => cases hrecorded
    show (acceptedIn (self.recordEvent parts recorded).trace).Sublist _
    unfold recordEvent
    split
    · rw [bufferEvent_eq]
      dsimp only
      rw [acceptedIn_append]
      apply List.Sublist.append_left
      split
      · exact List.Sublist.refl [recorded]
      · exact List.nil_sublist _
    · exact List.sublist_append_left _ _

end EmerDaemon

/-! ## 2. The tally and its ledger -/

/-- Every statement of SQLite succeeds. -/
def noFaults : TallyFaults := ⟨fun _ => none, fun _ => .none, none⟩

/-- The ledger is about this tally, and the rows that still have to be recorded are the last that it
has handed over. -/
def KeepsLedger (handedOver : List TallyIterArgs) (tally : QueueingTally)
    (ledger : CounterLedger) : Prop :=
  ledger.tally = tally.1 ∧ ledger.handedOver = handedOver ++ tally.2

section KeepsLedger

variable {glib : VariantLibrary} {order : ByteOrder} {select : SelectOrder}
  {handedOver : List TallyIterArgs} {tally : QueueingTally} {ledger : CounterLedger}

/-- The callback only adds to what was visited before. -/
theorem iterInternal_collect_append (tally : EmerAggregateTally) (query : TallyRow → Bool)
    (visited : List TallyIterArgs) :
    tally.iterInternal glib order EmerAggregateTally.collect true select query visited =
      (none,
        ⟨tally.rows.filter (·.id ∉ (select.reorder (tally.rows.filter query)).map (·.id))⟩,
        visited ++ (select.reorder (tally.rows.filter query)).map (rowArgs glib order)) := by
  rw [EmerAggregateTally.iterInternal, EmerAggregateTally.iterRows_collect]
  dsimp only
  rw [if_neg (not_not.mpr rfl), if_pos rfl]

theorem KeepsLedger.iterate (h : KeepsLedger handedOver tally ledger) (query : TallyQuery)
    (tallyType : EmerTallyType) (datetime : GDateTime) :
    KeepsLedger handedOver
      (tally.1.iterInternal glib order EmerAggregateTally.collect true select
        (query.selects tallyType datetime) tally.2).2
      (ledger.iterate glib order select noFaults query tallyType datetime) := by
  obtain ⟨htally, hhanded⟩ := h
  have hsame : ledger.tally.iterInternalUnder glib order EmerAggregateTally.collect true
      (noFaults.iter tallyType) select (query.selects tallyType datetime) ledger.handedOver =
        tally.1.iterInternal glib order EmerAggregateTally.collect true select
          (query.selects tallyType datetime) (handedOver ++ tally.2) := by
    rw [htally, hhanded]
    rfl
  -- both visit the same rows, each after what it had visited before
  rw [iterInternal_collect_append] at hsame ⊢
  rw [CounterLedger.iterate, hsame]
  exact ⟨rfl, List.append_assoc _ _ _⟩

theorem storeEventUnder_none (tally : EmerAggregateTally) (increment : TallyIncrement) :
    tally.storeEventUnder none increment = tally.storeEvent increment := by
  unfold EmerAggregateTally.storeEventUnder
  by_cases hpayload : increment.payload.any (·.typeString ≠ gVariantTypeVariant) = true
  · rw [if_pos hpayload, EmerAggregateTally.storeEvent, if_pos hpayload]
  · rw [if_neg hpayload]

theorem KeepsLedger.storeEvent (h : KeepsLedger handedOver tally ledger)
    (increment : TallyIncrement) :
    StoredAlike (KeepsLedger handedOver)
      ((queueingTally glib order select).storeEvent tally increment)
      (ledger.storeEvent noFaults increment) := by
  obtain ⟨htally, hhanded⟩ := h
  have hsame : ledger.tally.storeEventUnder (noFaults.store increment) increment =
      tally.1.storeEvent increment := by
    rw [htally]
    exact storeEventUnder_none tally.1 increment
  rw [CounterLedger.storeEvent, hsame]
  show StoredAlike _ ((tally.1.storeEvent increment).map (·, tally.2)) _
  cases tally.1.storeEvent increment with
  | error error => exact Eq.refl error
  | ok stored => exact And.intro rfl hhanded

theorem tallySimulation_ledger (handedOver : List TallyIterArgs) :
    TallySimulation (queueingTally glib order select)
      (CounterLedger.tallyOps glib order select noFaults) (KeepsLedger handedOver) where
  storeEvent := fun increment h => h.storeEvent increment
  iter := fun tallyType datetime h => h.iterate .iter tallyType datetime
  clear := fun h => ⟨rfl, h.2⟩

end KeepsLedger

/-! ## 3. The daemon and its ledger -/

/-- The daemon with a ledger beside its tally, and with everything that the upload machine was told
to record: the events of clients and the rows of the tally. -/
structure LedgeredRecorder (κ ε : Type*) where
  recorder : Recorder κ ε
  registry : TimerRegistry CounterLedger
  offered : List (ε ⊕ TallyIterArgs)

namespace LedgeredRecorder

variable {κ ε : Type*} (parts : RecorderParts κ ε)

def ledgerOps : AggregateTally CounterLedger :=
  CounterLedger.tallyOps parts.glib parts.order parts.select noFaults

/-- The ledger's timers hear of what the upload machine hears of. -/
def follow (before after : EmerDaemon κ ε) (registry : TimerRegistry CounterLedger) :
    TimerRegistry CounterLedger :=
  let cleared :=
    if (after.trace.drop before.trace.length).any Action.isOptedOut then
      registry.onPermissionsChanged (ledgerOps parts) false
    else registry
  { cleared with recordingEnabled := after.recordingEnabled }

/-- The daemon handles an event, and the ledger takes what the tally takes. -/
def handle (self : LedgeredRecorder κ ε) (event : RecorderEvent ε) :
    Option (LedgeredRecorder κ ε) :=
  (self.recorder.handle parts event).bind fun recorder =>
    match event with
    | .daemon event =>
      some
        { recorder := recorder
          registry := follow parts self.recorder.daemon recorder.daemon self.registry
          offered := self.offered ++ event.recorded?.toList.map .inl }
    | .timer (.permissionsChanged _) => some { self with recorder := recorder }
    | .timer event =>
      (handleTimerEvent (ledgerOps parts) parts.uuidGenerateSha1 self.registry event).map
        fun registry =>
          { recorder := recorder
            registry := registry
            offered := self.offered ++ (self.recorder.takenOut parts event).map .inr }

def step (state : Option (LedgeredRecorder κ ε)) (event : RecorderEvent ε) :
    Option (LedgeredRecorder κ ε) :=
  state.bind fun self => self.handle parts event

/-- The daemon as it starts, over a tally that an earlier daemon has left with its ledger. -/
def new (permissionsProvider : EmerPermissionsProvider) (persistentCache : κ)
    (maxBytesBuffered : Nat) (ledger : CounterLedger) (date now : GDateTime) :
    LedgeredRecorder κ ε :=
  let recorder : Recorder κ ε :=
    .new parts permissionsProvider persistentCache maxBytesBuffered ledger.tally date now
  let past := (Recorder.takePastAggregates parts ledger.tally now).2
  { recorder := recorder
    registry :=
      follow parts (.initial permissionsProvider persistentCache maxBytesBuffered)
        recorder.daemon
        (timerRegistryNew permissionsProvider.getDaemonEnabled date
          (ledger.bufferPastAggregateEvents parts.glib parts.order parts.select noFaults now))
    offered := past.map .inr }

/-- What the upload machine is told to record. -/
def asEvent : ε ⊕ TallyIterArgs → ε
  | .inl event => event
  | .inr args => parts.aggregate args

/-- Nothing gets lost between a timer and the upload machine, and nothing is told twice.  `earlier`
are the rows that earlier daemons have handed over. -/
structure Sound (earlier : List TallyIterArgs) (watched : LedgeredRecorder κ ε) : Prop where
  tally : watched.registry.aggregateTally.tally = watched.recorder.registry.aggregateTally.1
  conserved : watched.registry.aggregateTally.Conserved parts.glib parts.order
  handedOverOnce : watched.registry.aggregateTally.HandedOverOnce parts.glib parts.order
  offered : watched.registry.aggregateTally.handedOver =
    earlier ++ watched.offered.filterMap Sum.getRight?
  accepted : (acceptedIn watched.recorder.daemon.trace).Sublist
    (watched.offered.map (asEvent parts))

/-- The laws of a ledger whose statements all succeed. -/
def LedgerSound (ledger : CounterLedger) : Prop :=
  ledger.Conserved parts.glib parts.order ∧ ledger.HandedOverOnce parts.glib parts.order

/-- What holds between two events. -/
structure InStep (earlier : List TallyIterArgs) (watched : LedgeredRecorder κ ε) : Prop where
  overTally : watched.recorder.registry.OverTally
    (KeepsLedger (earlier ++ watched.offered.filterMap Sum.getRight?)) watched.registry
  recorded : watched.recorder.registry.aggregateTally.2 = []
  consistent : watched.registry.Consistent
  ledgerSound : LedgerSound parts watched.registry.aggregateTally
  accepted : (acceptedIn watched.recorder.daemon.trace).Sublist
    (watched.offered.map (asEvent parts))

variable {parts} {self : LedgeredRecorder κ ε} {earlier handedOver : List TallyIterArgs}

theorem InStep.sound (h : self.InStep parts earlier) : self.Sound parts earlier := by
  obtain ⟨ledger, ⟨htally, hhanded⟩, hregistry⟩ := h.overTally
  have hledger : self.registry.aggregateTally = ledger := by
    rw [hregistry]
    rfl
  rw [h.recorded, List.append_nil] at hhanded
  exact ⟨by rw [hledger, htally], h.ledgerSound.1, h.ledgerSound.2, by rw [hledger, hhanded],
    h.accepted⟩

variable (parts) in
/-- The laws are kept by every operation. -/
theorem keptByTally_ledgerSound : KeptByTally (ledgerOps parts) (LedgerSound parts) :=
  keptByTally_handedOverOnce fun _ => rfl

variable (parts) in
theorem overTally_follow {registry : TimerRegistry QueueingTally}
    {registry' : TimerRegistry CounterLedger}
    (h : registry.OverTally (KeepsLedger handedOver) registry') (before after : EmerDaemon κ ε) :
    (Recorder.follow parts before after registry).OverTally (KeepsLedger handedOver)
      (follow parts before after registry') := by
  unfold Recorder.follow follow
  split
  -- an opt-out clears both tables
  · obtain ⟨ledger, hkeeps, hcleared⟩ :=
      h.onPermissionsChanged (tallySimulation_ledger handedOver) false
    refine ⟨ledger, hkeeps, ?_⟩
    show ({ registry'.onPermissionsChanged (ledgerOps parts) false with
      recordingEnabled := after.recordingEnabled } : TimerRegistry CounterLedger) = _
    rw [ledgerOps, hcleared]
    rfl
  · obtain ⟨ledger, hkeeps, rfl⟩ := h
    exact ⟨ledger, hkeeps, rfl⟩

variable (parts) in
/-- An opt-out clears the ledger's table as it clears the tally's. -/
theorem ledgerSound_follow {registry : TimerRegistry CounterLedger}
    (hconsistent : registry.Consistent) (h : LedgerSound parts registry.aggregateTally)
    (before after : EmerDaemon κ ε) :
    (follow parts before after registry).Consistent ∧
      LedgerSound parts (follow parts before after registry).aggregateTally := by
  unfold follow
  split
  · obtain ⟨cleared, hcleared, hafter, hsound⟩ := (keptByTally_ledgerSound parts).handleTimerEvent
      parts.uuidGenerateSha1 hconsistent h (.permissionsChanged false)
    cases hcleared
    exact ⟨⟨hafter.nodup, hafter.fresh, hafter.arrays, hafter.nonempty⟩, hsound⟩
  · exact ⟨⟨hconsistent.nodup, hconsistent.fresh, hconsistent.arrays, hconsistent.nonempty⟩, h⟩

/-- **Step lemma** for the events of the upload machine. -/
theorem InStep.daemonEvent (h : self.InStep parts earlier) {event : DaemonEvent ε}
    {recorder : Recorder κ ε} (hrecorder : self.recorder.handle parts (.daemon event) =
      some recorder) :
    ∃ next, self.handle parts (.daemon event) = some next ∧ next.recorder = recorder ∧
      next.InStep parts earlier := by
  have hhandle : self.handle parts (.daemon event) =
      some ⟨recorder, follow parts self.recorder.daemon recorder.daemon self.registry,
        self.offered ++ event.recorded?.toList.map .inl⟩ := by
    rw [LedgeredRecorder.handle, hrecorder]
    rfl
  refine ⟨_, hhandle, rfl, ?_⟩
  have hrows : (self.offered ++ event.recorded?.toList.map Sum.inl).filterMap Sum.getRight? =
      self.offered.filterMap Sum.getRight? := by
    simp [List.filterMap_append, List.filterMap_map]
  have hevents : (self.offered ++ event.recorded?.toList.map Sum.inl).map (asEvent parts) =
      self.offered.map (asEvent parts) ++ event.recorded?.toList := by
    rw [List.map_append, List.map_map]
    congr 1
    exact List.map_id _
  rw [Recorder.handle] at hrecorder
  split at hrecorder
  · cases hrecorder
  · rename_i daemon hok
    cases hrecorder
    obtain ⟨hconsistent, hsound⟩ :=
      ledgerSound_follow parts h.consistent h.ledgerSound self.recorder.daemon daemon
    refine ⟨?_, Recorder.recorded_follow parts h.recorded, hconsistent, hsound, ?_⟩
    · show (Recorder.follow parts _ _ _).OverTally (KeepsLedger (earlier ++ List.filterMap _ _)) _
      rw [hrows]
      exact overTally_follow parts h.overTally self.recorder.daemon daemon
    · show List.Sublist _ (List.map _ _)
      rw [hevents]
      have haccepted := @EmerDaemon.acceptedIn_handle _ _ parts.toDaemonParts
        self.recorder.daemon event
      rw [hok] at haccepted
      exact haccepted.trans (h.accepted.append_right _)

/-- The rows that are taken out of the tally. -/
theorem acceptedIn_recordAggregates (daemon : EmerDaemon κ ε) (rows : List TallyIterArgs) :
    (acceptedIn (rows.foldl
      (fun daemon args => daemon.recordEvent parts.toDaemonParts (parts.aggregate args))
        daemon).trace).Sublist (acceptedIn daemon.trace ++ rows.map parts.aggregate) := by
  induction rows generalizing daemon with
  | nil =>
    rw [List.map_nil, List.append_nil]
    exact List.Sublist.refl _
  | cons args rows ih =>
    have hfirst := @EmerDaemon.acceptedIn_handle _ _ parts.toDaemonParts daemon
      (.recordEvent (parts.aggregate args))
    have hrest := ih (daemon.recordEvent parts.toDaemonParts (parts.aggregate args))
    have hall := hrest.trans (hfirst.append_right (rows.map parts.aggregate))
    rw [List.append_assoc] at hall
    exact hall

theorem rows_append (offered : List (ε ⊕ TallyIterArgs)) (rows : List TallyIterArgs) :
    (offered ++ rows.map Sum.inr).filterMap Sum.getRight? =
      offered.filterMap Sum.getRight? ++ rows := by
  rw [List.filterMap_append, List.filterMap_map]
  congr 1
  exact List.filterMap_some

theorem asEvent_append (offered : List (ε ⊕ TallyIterArgs)) (rows : List TallyIterArgs) :
    (offered ++ rows.map Sum.inr).map (asEvent parts) =
      offered.map (asEvent parts) ++ rows.map parts.aggregate := by
  rw [List.map_append, List.map_map]
  rfl

/-- **Step lemma** for the events of the timers. -/
theorem InStep.timerEvent (h : self.InStep parts earlier) {event : TimerEvent}
    {recorder : Recorder κ ε} (hrecorder : self.recorder.handle parts (.timer event) =
      some recorder) :
    ∃ next, self.handle parts (.timer event) = some next ∧ next.recorder = recorder ∧
      next.InStep parts earlier := by
  rcases Recorder.handle_timer hrecorder with
    ⟨⟨enabled, rfl⟩, rfl⟩ | ⟨hevent, registry, hregistry, htaken, rfl⟩
  · exact ⟨self, rfl, rfl, h⟩
  obtain ⟨next, hnext, ledger, ⟨htally, hhanded⟩, hover⟩ :=
    h.overTally.handleTimerEvent (tallySimulation_ledger _) hregistry
  obtain ⟨next', hnext', hconsistent, hsound⟩ :=
    (keptByTally_ledgerSound parts).handleTimerEvent parts.uuidGenerateSha1 h.consistent
      h.ledgerSound event
  -- the same step is seen from the tally's side and from the ledger's
  obtain rfl : next = next' := Option.some.inj (hnext.symm.trans hnext')
  have hmap : self.handle parts (.timer event) =
      (handleTimerEvent (ledgerOps parts) parts.uuidGenerateSha1 self.registry event).map
        fun next => ⟨Recorder.recordAggregates parts self.recorder.daemon registry, next,
          self.offered ++ (self.recorder.takenOut parts event).map Sum.inr⟩ := by
    rw [LedgeredRecorder.handle, hrecorder]
    cases event with
    | permissionsChanged enabled => exact absurd rfl (hevent enabled)
    | _ => rfl
  have hhandle : self.handle parts (.timer event) =
      some ⟨Recorder.recordAggregates parts self.recorder.daemon registry, next,
        self.offered ++ (self.recorder.takenOut parts event).map Sum.inr⟩ := by
    rw [hmap, hnext']
    rfl
  refine ⟨_, hhandle, rfl, ⟨ledger, ⟨htally, ?_⟩, hover⟩, rfl, hconsistent, hsound, ?_⟩
  -- the rows that were to be recorded have been offered now
  · show ledger.handedOver = (earlier ++ List.filterMap _ _) ++ []
    rw [rows_append, htaken, hhanded, List.append_nil, List.append_assoc]
  · show List.Sublist _ (List.map _ _)
    rw [asEvent_append, htaken]
    exact (acceptedIn_recordAggregates self.recorder.daemon registry.aggregateTally.2).trans
      (h.accepted.append_right _)

/-- **Step lemma.**  The ledger gets along with whatever the daemon does. -/
theorem InStep.handle (h : self.InStep parts earlier) {event : RecorderEvent ε}
    {recorder : Recorder κ ε} (hrecorder : self.recorder.handle parts event = some recorder) :
    ∃ next, self.handle parts event = some next ∧ next.recorder = recorder ∧
      next.InStep parts earlier := by
  cases event with
  | daemon event => exact h.daemonEvent hrecorder
  | timer event => exact h.timerEvent hrecorder

/-- **Run lemma.** -/
theorem InStep.reached (h : self.InStep parts earlier) {events : List (RecorderEvent ε)}
    {recorder : Recorder κ ε}
    (hrun : run (Recorder.step parts) (some self.recorder) events = some recorder) :
    ∃ reached, run (step parts) (some self) events = some reached ∧
      reached.recorder = recorder ∧ reached.InStep parts earlier := by
  induction events generalizing self with
  | nil =>
    cases hrun
    exact ⟨self, rfl, rfl, h⟩
  | cons event events ih =>
    obtain ⟨after, hhandle, hrest⟩ := @run_bind_cons _ _ (Recorder.handle parts) _ _ _ _ hrun
    obtain ⟨next, hnext, rfl, hinStep⟩ := h.handle hhandle
    have hledgered : step parts (some self) event = some next := hnext
    rw [run_cons, hledgered]
    exact ih hinStep hrest

/-! ## 4. From the start -/

variable (parts) in
/-- The daemon starts with the rows of earlier periods. -/
theorem inStep_new (permissionsProvider : EmerPermissionsProvider) (persistentCache : κ)
    (maxBytesBuffered : Nat) {ledger : CounterLedger} (hledger : LedgerSound parts ledger)
    (date now : GDateTime) :
    (new parts permissionsProvider persistentCache maxBytesBuffered ledger date now).InStep parts
      ledger.handedOver := by
  have hstart : KeepsLedger ledger.handedOver (ledger.tally, []) ledger :=
    ⟨rfl, (List.append_nil _).symm⟩
  have hdaily := @KeepsLedger.iterate parts.glib parts.order parts.select _ _ _ hstart .iterBefore
    .dailyEvents now
  have hpast : KeepsLedger ledger.handedOver
      (Recorder.takePastAggregates parts ledger.tally now)
      (ledger.bufferPastAggregateEvents parts.glib parts.order parts.select noFaults now) :=
    hdaily.iterate .iterBefore .monthlyEvents now
  have hsound : LedgerSound parts
      (ledger.bufferPastAggregateEvents parts.glib parts.order parts.select noFaults now) :=
    ⟨hledger.1.bufferPastAggregateEvents now,
      hledger.2.bufferPastAggregateEvents hledger.1 (fun _ => rfl) now⟩
  have hover : (timerRegistryNew permissionsProvider.getDaemonEnabled date
      ((Recorder.takePastAggregates parts ledger.tally now).1, [])).OverTally
        (KeepsLedger (ledger.handedOver ++
          (((Recorder.takePastAggregates parts ledger.tally now).2.map
            Sum.inr : List (ε ⊕ TallyIterArgs)).filterMap Sum.getRight?)))
      (timerRegistryNew permissionsProvider.getDaemonEnabled date
        (ledger.bufferPastAggregateEvents parts.glib parts.order parts.select noFaults now)) := by
    refine ⟨_, ⟨hpast.1, ?_⟩, rfl⟩
    have hrows := rows_append ([] : List (ε ⊕ TallyIterArgs))
      (Recorder.takePastAggregates parts ledger.tally now).2
    rw [List.nil_append, List.filterMap_nil, List.nil_append] at hrows
    rw [hrows]
    show _ = (ledger.handedOver ++ _) ++ []
    rw [List.append_nil]
    exact hpast.2
  obtain ⟨hconsistent, hledgerSound⟩ := ledgerSound_follow parts
    (TimerRegistry.consistent_new permissionsProvider.getDaemonEnabled date _) hsound
    (.initial permissionsProvider persistentCache maxBytesBuffered)
    (new parts permissionsProvider persistentCache maxBytesBuffered ledger date now).recorder.daemon
  refine ⟨overTally_follow parts hover _ _, Recorder.recorded_follow parts rfl, hconsistent,
    hledgerSound, ?_⟩
  have hevents := @asEvent_append κ ε parts []
    (Recorder.takePastAggregates parts ledger.tally now).2
  rw [List.nil_append, List.map_nil, List.nil_append] at hevents
  show (acceptedIn (new parts permissionsProvider persistentCache maxBytesBuffered ledger
    date now).recorder.daemon.trace).Sublist (List.map (asEvent parts) (List.map Sum.inr _))
  rw [hevents]
  -- reading the environment accepts nothing
  have hrecorded := @acceptedIn_recordAggregates κ ε parts
    (.initial permissionsProvider persistentCache maxBytesBuffered)
    (Recorder.takePastAggregates parts ledger.tally now).2
  rw [← List.foldl_map] at hrecorded
  have hsame : EmerDaemon.SameAccepted (κ := κ) _ _ := EmerDaemon.SameAccepted.housekept rfl
    (EmerDaemon.getEnvironment_housekept parts.toDaemonParts True
      (((Recorder.takePastAggregates parts ledger.tally now).2.map parts.aggregate).foldl
        (fun daemon event => daemon.recordEvent parts.toDaemonParts event)
        (.initial permissionsProvider persistentCache maxBytesBuffered)))
  rw [← hsame] at hrecorded
  exact hrecorded

/-- **Measured time is reported once.**  In every run of the daemon, the counters that were stored
since the ledger was begun are those of the rows of the tally, of the rows that an opt-out has
cleared and of the rows that were taken out; those that were taken out were offered to the upload
machine, each once and in order; and the events that the machine has accepted come from what it was
offered. -/
theorem time_offered_once (parts : RecorderParts κ ε)
    (permissionsProvider : EmerPermissionsProvider) (persistentCache : κ)
    (maxBytesBuffered : Nat) {ledger : CounterLedger}
    (hconserved : ledger.Conserved parts.glib parts.order)
    (honce : ledger.HandedOverOnce parts.glib parts.order) (date now : GDateTime)
    (events : List (RecorderEvent ε)) :
    ∀ recorder ∈ run (Recorder.step parts)
        (some (.new parts permissionsProvider persistentCache maxBytesBuffered ledger.tally date
          now))
        events,
      ∃ watched ∈ run (step parts)
          (some (.new parts permissionsProvider persistentCache maxBytesBuffered ledger date now))
          events,
        watched.recorder = recorder ∧ watched.Sound parts ledger.handedOver := by
  intro recorder hrun
  have hnew := inStep_new parts permissionsProvider persistentCache maxBytesBuffered
    ⟨hconserved, honce⟩ date now
  obtain ⟨watched, hreached, hrecorder, hinStep⟩ := hnew.reached hrun
  exact ⟨watched, hreached, hrecorder, hinStep.sound⟩

end LedgeredRecorder

/-- A timer runs for five seconds, and the day ends.  A client's event comes before. -/
def reportedTimer : List (RecorderEvent Nat) :=
  [.daemon (.recordEvent 3),
    .timer (.startAggregateTimer ⟨":1.7".toList, 1001,
      ⟨gVariantTypeBytestring, List.replicate 16 7⟩, false, boxed 1, true, 0⟩),
    .timer (.stopTimer 0 ⟨2021, 9, 22⟩ 5000000),
    .timer (.clockTickedMidnight 9000000 ⟨2021, 9, 23⟩ ⟨2021, 9, 23⟩)]

/-- A timer of the day before had run for two seconds. -/
def formerIncrement (tallyType : EmerTallyType) : TallyIncrement :=
  ⟨0, tallyType, 1001, List.replicate 16 7, none, 2, ⟨2021, 9, 21⟩⟩

/-- The daemon had stopped before midnight. -/
def formerLedger : CounterLedger :=
  let ledger := CounterLedger.empty.storeEvent noFaults (formerIncrement .dailyEvents)
  ((ledger.bind (·.storeEvent noFaults (formerIncrement .monthlyEvents))).toOption).getD .empty

theorem formerLedger_conserved : formerLedger.Conserved boxedNumbers .little := by
  have hstore : ∀ {ledger stored : CounterLedger} (tallyType : EmerTallyType),
      ledger.Conserved boxedNumbers .little →
      ledger.storeEvent noFaults (formerIncrement tallyType) = .ok stored →
      stored.Conserved boxedNumbers .little := by
    intro ledger stored tallyType hledger hstored
    exact hledger.storeEvent (show 2 ≤ gMaxuint32 by decide) hstored
  exact hstore .monthlyEvents (hstore .dailyEvents CounterLedger.conserved_empty rfl) rfl

/-- The daemon starts anew on the next day. -/
def formerRecorder : Recorder (List Nat) Nat :=
  .new sampleRecorderParts (emerPermissionsProviderNew (.parsed sampleConfigFile) none) [2] 100
    formerLedger.tally ⟨2021, 9, 22⟩ ⟨2021, 9, 22⟩

def reportingRecorder : Recorder (List Nat) Nat :=
  (run (Recorder.step sampleRecorderParts) (some formerRecorder) reportedTimer).getD formerRecorder

theorem time_offered_once_reportedTimer :
    ∃ watched ∈ run (LedgeredRecorder.step sampleRecorderParts)
        (some (.new sampleRecorderParts (emerPermissionsProviderNew (.parsed sampleConfigFile) none)
          [2] 100 formerLedger ⟨2021, 9, 22⟩ ⟨2021, 9, 22⟩)) reportedTimer,
      watched.recorder = reportingRecorder ∧
        watched.Sound sampleRecorderParts formerLedger.handedOver :=
  LedgeredRecorder.time_offered_once sampleRecorderParts _ [2] 100 formerLedger_conserved
    (List.Perm.refl []) ⟨2021, 9, 22⟩ ⟨2021, 9, 22⟩ reportedTimer reportingRecorder rfl

/-- The two seconds of the day before are taken out as the daemon starts, and the five seconds at
midnight.  Both are accepted, beside the client's event. -/
example : (run (LedgeredRecorder.step sampleRecorderParts)
    (some (.new sampleRecorderParts (emerPermissionsProviderNew (.parsed sampleConfigFile) none)
      [2] 100 formerLedger ⟨2021, 9, 22⟩ ⟨2021, 9, 22⟩)) reportedTimer).map (fun watched =>
        (watched.registry.aggregateTally.handedOver.map (·.counter),
          acceptedIn watched.recorder.daemon.trace)) = some ([2, 5], [2, 3, 5]) := by
  decide +kernel

end EventRecorder
