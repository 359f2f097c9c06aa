import EventRecorder.CircularFile.Resize

/-!
# The lives of a circular file

A path is opened at one maximum size after another, with calls on the object in between.  Closing
takes no step: an object that is dropped leaves its files as they are.  The queue at the path keeps
what fits whenever its capacity changes.  A capacity of zero is the end of it, since the head 0 that
is written then fails the check of the next opening.
-/

namespace EventRecorder

open Theory

/-- What happens at a path. -/
inductive CircularFileEvent where
  /-- `emer_circular_file_new`, for an existing file without reinitialising it. -/
  | new (maxSize : Nat)
  | call (op : CircularFileOp)
  deriving DecidableEq, Repr

/-! ## 1. The path -/

inductive CircularFilePath where
  | closed (disk : CircularFileOnDisk)
  | opened (client : CircularFileClient)

namespace CircularFilePath

/-- Neither file is there. -/
def absent : CircularFilePath := .closed ⟨none, .absent⟩

def disk : CircularFilePath → CircularFileOnDisk
  | .closed disk => disk
  | .opened client => client.file.disk

def afterNew (result : Except GError EmerCircularFile × CircularFileOnDisk) :
    CircularFilePath × CircularFileReply :=
  match result with
  | (.ok file, _) => (.opened ⟨file, []⟩, .done (.ok ()))
  | (.error e, disk) => (.closed disk, .done (.error e))

variable (uninitialised : Nat → UInt8)

/-- One event, with every file operation succeeding. -/
def step (path : CircularFilePath) : CircularFileEvent → CircularFilePath × CircularFileReply
  | .new maxSize =>
    afterNew (EmerCircularFile.new path.disk maxSize false uninitialised .none)
  | .call op =>
    match path with
    -- there is no object to call
    | .closed disk => (.closed disk, .done (.error .failed))
    | .opened client =>
      let result := client.call uninitialised op
      (.opened result.1, result.2)

def next (path : CircularFilePath) (event : CircularFileEvent) : CircularFilePath :=
  (path.step uninitialised event).1

/-- Maximum sizes are `guint64`.  Opening again at the same size is an event of the path, not a
call. -/
def Admissible (path : CircularFilePath) : CircularFileEvent → Prop
  | .new maxSize => maxSize < 2 ^ 64
  | .call op =>
    match path with
    | .closed _ => False
    | .opened client => op ≠ .reopen ∧ client.Admissible op

instance : ∀ (path : CircularFilePath) (event : CircularFileEvent),
    Decidable (path.Admissible event)
  | _, .new _ => inferInstanceAs (Decidable (_ < _))
  | .closed _, .call _ => isFalse id
  | .opened client, .call op => inferInstanceAs (Decidable (op ≠ .reopen ∧ client.Admissible op))

/-- Opening succeeds, if the event is one. -/
def NewSucceeds (path : CircularFilePath) : CircularFileEvent → Prop
  | .new maxSize => (EmerCircularFile.new path.disk maxSize false uninitialised .none).1.isOk = true
  | .call _ => True

end CircularFilePath

/-! ## 2. The queue at the path -/

inductive QueuePath where
  | absent
  | closed (capacity : Nat) (saved : List Bytes)
  | opened (capacity : Nat) (client : QueueClient)

namespace QueuePath

def capacity : QueuePath → Option Nat
  | .absent => none
  | .closed capacity _ => some capacity
  | .opened capacity _ => some capacity

def saved : QueuePath → List Bytes
  | .absent => []
  | .closed _ saved => saved
  | .opened _ client => client.queue.saved

/-- The check that a head of 0 fails when the previous maximum size is 0. -/
def headOutOfRange : GError :=
  .invalidData "Pointer to head of circular file must lie in range [0, 0), but was 0."

def step (path : QueuePath) : CircularFileEvent → QueuePath × CircularFileReply
  | .new maxSize =>
    if path.capacity = some 0 then (.closed 0 [], .done (.error headOutOfRange))
    else
      (.opened maxSize ⟨⟨takeWithin frameLength maxSize path.saved, []⟩, []⟩, .done (.ok ()))
  | .call op =>
    match path with
    | .opened capacity client =>
      let result := client.call capacity op
      (.opened capacity result.1, result.2)
    | path => (path, .done (.error .failed))

def next (path : QueuePath) (event : CircularFileEvent) : QueuePath :=
  (path.step event).1

end QueuePath

/-! ## 3. What opening makes of the files -/

/-- The files of a circular file of no capacity. -/
structure NothingOnDisk (bounded : Prop) (disk : CircularFileOnDisk) (keyFile : KeyFile) :
    Prop where
  dataFile : ∃ contents, disk.dataFile = some contents ∧ (bounded → contents = [])
  metadataFile : disk.metadataFile = .parsed keyFile
  describes : Describes keyFile 0 0 0

/-- The files of a queue of the given capacity, or of none that has been opened yet. -/
inductive OnDisk (bounded : Prop) (disk : CircularFileOnDisk) :
    Option Nat → List Bytes → Prop where
  | absent (hmetadata : disk.metadataFile = .absent)
      (hdata : bounded → disk.dataFile.getD [] = []) : OnDisk bounded disk none []
  | nothing {keyFile : KeyFile} (h : NothingOnDisk bounded disk keyFile) :
      OnDisk bounded disk (some 0) []
  | stored {maxSize : Nat} {saved : List Bytes} {keyFile : KeyFile} {head : Nat} {contents : Bytes}
      (h : StoredOnDisk bounded disk maxSize saved keyFile head contents) :
      OnDisk bounded disk (some maxSize) saved

/-- A client of a circular file of no capacity: its queue is and stays empty. -/
structure RefinesNothing (client : CircularFileClient) (spec : QueueClient) : Prop where
  dataFile : client.file.disk.dataFile = some []
  metadataFile : client.file.disk.metadataFile = .parsed client.file.metadataKeyFile
  describes : Describes client.file.metadataKeyFile 0 0 0
  maxSize_eq : client.file.maxSize = 0
  size_eq : client.file.size = 0
  writeBuffer_eq : client.file.writeBuffer = []
  tokens_eq : ∀ token ∈ client.tokens, token = 0
  counts_eq : ∀ count ∈ spec.counts, count = 0
  queue_eq : spec.queue = Fifo.empty

/-- The object refines the queue. -/
inductive RefinesOpened (client : CircularFileClient) : Nat → QueueClient → Prop where
  | nothing {spec : QueueClient} (h : RefinesNothing client spec) : RefinesOpened client 0 spec
  | queue {capacity : Nat} {spec : QueueClient} (h : Refines capacity client spec) :
      RefinesOpened client capacity spec

theorem RefinesOpened.onDisk {capacity : Nat} {client : CircularFileClient} {spec : QueueClient}
    (h : RefinesOpened client capacity spec) :
    OnDisk True client.file.disk (some capacity) spec.queue.saved := by
  cases h with
  | nothing h =>
    rw [h.queue_eq]
    exact .nothing ⟨⟨[], h.dataFile, fun _ => rfl⟩, h.metadataFile, h.describes⟩
  | queue h =>
    obtain ⟨contents, hkeeps⟩ := h.keeps
    exact .stored hkeeps.storedOnDisk

/-- An object that could be opened holds the files as they are now. -/
theorem new_disk {disk : CircularFileOnDisk} {maxSize : Nat} {reinitialized : Bool}
    {uninitialised : Nat → UInt8} {fault : InitFault} {file : EmerCircularFile}
    (h : (EmerCircularFile.new disk maxSize reinitialized uninitialised fault).1 = .ok file) :
    EmerCircularFile.new disk maxSize reinitialized uninitialised fault =
      (.ok file, file.disk) := by
  unfold EmerCircularFile.new at h ⊢
  simp only at h ⊢
  split at h
  · cases h
  · cases h
    rfl

theorem NothingOnDisk.parseMetadata_eq {bounded : Prop} {disk : CircularFileOnDisk}
    {keyFile : KeyFile} (h : NothingOnDisk bounded disk keyFile) :
    EmerCircularFile.parseMetadata keyFile = .error QueuePath.headOutOfRange := by
  simp only [EmerCircularFile.parseMetadata, h.describes.maxSize_eq, h.describes.size_eq,
    h.describes.head_eq]
  decide

/-- The triple of a file of no capacity does not pass the checks. -/
theorem NothingOnDisk.new_eq {bounded : Prop} {disk : CircularFileOnDisk} {keyFile : KeyFile}
    (h : NothingOnDisk bounded disk keyFile) (maxSize : Nat) (uninitialised : Nat → UInt8) :
    EmerCircularFile.new disk maxSize false uninitialised .none =
      (.error QueuePath.headOutOfRange, disk) := by
  obtain ⟨dataFile, metadataFile⟩ := disk
  obtain ⟨contents, hdata, -⟩ := h.dataFile
  have hdata : dataFile = some contents := hdata
  have hmetadata : metadataFile = .parsed keyFile := h.metadataFile
  subst hdata hmetadata
  simp [EmerCircularFile.new, EmerCircularFile.initableInit, EmerCircularFile.loadMetadata,
    KeyFileOnDisk.load, h.describes.hasGroup, h.parseMetadata_eq]

theorem refinesNothing_new {keyFile : KeyFile} (hkeyFile : Describes keyFile 0 0 0) :
    RefinesNothing
      ⟨{ disk := ⟨some [], .parsed keyFile⟩, metadataKeyFile := keyFile, writeBuffer := []
         maxSize := 0, size := 0, head := 0 }, []⟩ QueueClient.empty :=
  ⟨rfl, rfl, hkeyFile, rfl, rfl, rfl, by simp, by simp [QueueClient.empty], rfl⟩

/-- Opening files of some capacity gives an object that refines what fits of the queue. -/
theorem OnDisk.new_refines {disk : CircularFileOnDisk} {capacity : Option Nat}
    {saved : List Bytes} (h : OnDisk True disk capacity saved) (hcapacity : capacity ≠ some 0)
    {maxSize : Nat} (hmaxSize : maxSize < 2 ^ 64) (uninitialised : Nat → UInt8) :
    ∃ file, EmerCircularFile.new disk maxSize false uninitialised .none = (.ok file, file.disk) ∧
      RefinesOpened ⟨file, []⟩ maxSize ⟨⟨takeWithin frameLength maxSize saved, []⟩, []⟩ ∧
      (capacity ≠ some maxSize → file.head = 0) := by
  cases h with
  | nothing h => exact absurd rfl hcapacity
  | absent hmetadata hdata =>
    obtain ⟨keyFile, hkeyFile, hnew⟩ :=
      new_of_needsInit (.inr (.inl hmetadata) : NeedsInit disk false) hmaxSize uninitialised
    rw [hdata trivial] at hnew
    refine ⟨_, new_disk hnew, ?_, fun _ => rfl⟩
    by_cases hzero : maxSize = 0
    · subst hzero
      exact .nothing (refinesNothing_new hkeyFile)
    · exact .queue (refines_of_empty (by omega) hmaxSize (Nat.zero_le _) hkeyFile)
  | @stored prevMaxSize _ keyFile head contents h =>
    by_cases hzero : maxSize = 0
    · subst hzero
      -- nothing fits in a capacity of zero
      have hkept : takeWithin frameLength 0 saved = [] := by
        cases saved with
        | nil => rfl
        | cons elem saved => rw [takeWithin, frameLength, if_neg (by omega)]
      have hne : prevMaxSize ≠ 0 := fun heq => hcapacity (congrArg some heq)
      obtain ⟨keyFile', hdescribes, hnew⟩ := h.new_resized hne hmaxSize uninitialised
      rw [hkept] at hdescribes hnew ⊢
      exact ⟨_, hnew, .nothing (refinesNothing_new hdescribes), fun _ => rfl⟩
    · obtain ⟨file, contents', hnew, hkeeps, hhead⟩ :=
        h.new_keeps (show 1 ≤ maxSize by omega) hmaxSize uninitialised
      exact ⟨file, hnew, .queue (hkeeps.refines trivial),
        fun hne => hhead fun heq => hne (congrArg some heq.symm)⟩

/-! ## 4. The simulation -/

namespace RefinesNothing

variable {client : CircularFileClient} {spec : QueueClient}

theorem token_eq (h : RefinesNothing client spec) (place : Nat) : client.token place = 0 := by
  rw [CircularFileClient.token]
  cases htoken : client.tokens[place]? with
  | none => rfl
  | some token => exact h.tokens_eq token (List.mem_of_getElem? htoken)

theorem count_eq (h : RefinesNothing client spec) (place : Nat) : spec.count place = 0 := by
  rw [QueueClient.count]
  cases hcount : spec.counts[place]? with
  | none => rfl
  | some count => exact h.counts_eq count (List.mem_of_getElem? hcount)

/-- Nothing is ever accepted, and everything else does nothing. -/
theorem call (uninitialised : Nat → UInt8) (h : RefinesNothing client spec) {op : CircularFileOp}
    (hop : op ≠ .reopen) (hok : client.Admissible op) :
    (client.call uninitialised op).2 = (spec.call 0 op).2 ∧
      RefinesNothing (client.call uninitialised op).1 (spec.call 0 op).1 := by
  obtain ⟨⟨saved, unsaved⟩, counts⟩ := spec
  obtain ⟨rfl, rfl⟩ := Fifo.mk.inj h.queue_eq
  cases op with
  | append elem =>
    obtain ⟨helem, hsum, hbuffer⟩ := hok
    rw [h.size_eq, h.writeBuffer_eq] at hsum
    have htotal : (client.file.size + client.file.writeBuffer.length +
        (sizeofElemSize + elem.length) % 2 ^ 64) % 2 ^ 64 = 8 + elem.length := by
      rw [h.size_eq, h.writeBuffer_eq, sizeofElemSize, List.length_nil]
      omega
    have hrefused : client.file.append elem = (false, client.file) :=
      if_pos (by rw [htotal, h.maxSize_eq]; omega)
    have hspec : (Fifo.mk [] [] : Fifo Bytes).append frameLength 0 elem = (false, ⟨[], []⟩) := by
      rw [Fifo.append, Fifo.occupied, frameLength, if_neg (by simp)]
    simp only [CircularFileClient.call, QueueClient.call, hrefused, hspec, true_and]
    exact h
  | save =>
    have hsave : client.file.save .none = (.ok (), client.file) :=
      if_pos (by rw [h.writeBuffer_eq]; rfl)
    simp only [CircularFileClient.call, QueueClient.call, hsave, true_and]
    exact h
  | read budget =>
    have hread : client.file.read budget true = (.ok ⟨[], 0⟩, false, client.file) :=
      if_pos h.size_eq
    simp only [CircularFileClient.call, QueueClient.call, hread]
    refine ⟨rfl, { h with tokens_eq := ?_, counts_eq := ?_ }⟩
    · intro token hmem
      exact (List.mem_append.mp hmem).elim (h.tokens_eq token) List.mem_singleton.mp
    · intro count hmem
      exact (List.mem_append.mp hmem).elim (h.counts_eq count) List.mem_singleton.mp
  | hasMore place =>
    refine ⟨?_, h⟩
    simp only [CircularFileClient.call, QueueClient.call, h.token_eq, h.count_eq,
      EmerCircularFile.hasMore, h.size_eq, Fifo.hasMore, List.length_nil]
  | remove place =>
    have hremove : client.file.remove 0 true = (.ok (), client.file) := if_pos rfl
    simp only [CircularFileClient.call, QueueClient.call, h.token_eq, hremove]
    refine ⟨trivial, { h with tokens_eq := ?_, counts_eq := by simp, queue_eq := ?_ }⟩
    · simp [CircularFileClient.afterRemoval]
    · simp [Fifo.remove, Fifo.empty]
  | purge =>
    have hpurge : client.file.purge true = (.ok (), client.file) := if_pos h.size_eq
    simp only [CircularFileClient.call, QueueClient.call, hpurge]
    refine ⟨trivial, { h with tokens_eq := ?_, counts_eq := by simp, queue_eq := rfl }⟩
    simp [CircularFileClient.afterRemoval]
  | reopen => exact absurd rfl hop

end RefinesNothing

/-- Every admissible call answers as the queue of the same capacity does. -/
theorem RefinesOpened.call (uninitialised : Nat → UInt8) {capacity : Nat}
    {client : CircularFileClient} {spec : QueueClient} (h : RefinesOpened client capacity spec)
    {op : CircularFileOp} (hop : op ≠ .reopen) (hok : client.Admissible op) :
    (client.call uninitialised op).2 = (spec.call capacity op).2 ∧
      RefinesOpened (client.call uninitialised op).1 capacity (spec.call capacity op).1 := by
  cases h with
  | nothing h =>
    obtain ⟨hreply, hnext⟩ := h.call uninitialised hop hok
    exact ⟨hreply, .nothing hnext⟩
  | queue h =>
    obtain ⟨hreply, hnext⟩ := h.call uninitialised hok
    exact ⟨hreply, .queue hnext⟩

/-- The path realizes the queue at it. -/
inductive Realizes : CircularFilePath → QueuePath → Prop where
  | absent {disk : CircularFileOnDisk} (h : OnDisk True disk none []) :
      Realizes (.closed disk) .absent
  | closed {disk : CircularFileOnDisk} {capacity : Nat} {saved : List Bytes}
      (h : OnDisk True disk (some capacity) saved) :
      Realizes (.closed disk) (.closed capacity saved)
  | opened {client : CircularFileClient} {capacity : Nat} {spec : QueueClient}
      (h : RefinesOpened client capacity spec) : Realizes (.opened client) (.opened capacity spec)

namespace Realizes

variable {path : CircularFilePath} {spec : QueuePath}

theorem onDisk (h : Realizes path spec) : OnDisk True path.disk spec.capacity spec.saved := by
  cases h with
  | absent h => exact h
  | closed h => exact h
  | opened h => exact h.onDisk

theorem step (uninitialised : Nat → UInt8) (h : Realizes path spec) {event : CircularFileEvent}
    (hok : path.Admissible event) :
    (path.step uninitialised event).2 = (spec.step event).2 ∧
      Realizes (path.step uninitialised event).1 (spec.step event).1 := by
  cases event with
  | new maxSize =>
    have hmaxSize : maxSize < 2 ^ 64 := hok
    by_cases hcapacity : spec.capacity = some 0
    · have hdisk := h.onDisk
      rw [hcapacity] at hdisk
      generalize spec.saved = saved at hdisk
      -- only the files of no capacity are those of a capacity of zero
      cases hdisk with
      | nothing hnothing =>
        simp only [CircularFilePath.step, QueuePath.step, hnothing.new_eq, if_pos hcapacity]
        exact ⟨rfl, .closed (.nothing hnothing)⟩
      | stored hstored => exact absurd hstored.head_lt (Nat.not_lt_zero _)
    · obtain ⟨file, hnew, hrefines, -⟩ := h.onDisk.new_refines hcapacity hmaxSize uninitialised
      simp only [CircularFilePath.step, QueuePath.step, hnew, if_neg hcapacity]
      exact ⟨rfl, .opened hrefines⟩
  | call op =>
    cases h with
    | absent h => exact hok.elim
    | closed h => exact hok.elim
    | opened h =>
      obtain ⟨hreply, hnext⟩ := h.call uninitialised hok.1 hok.2
      exact ⟨hreply, .opened hnext⟩

end Realizes

/-- The path and the queue at it start out absent. -/
theorem realizes_absent : Realizes CircularFilePath.absent .absent :=
  .absent (.absent rfl fun _ => rfl)

/-- A run at a path answers as the run of the queue does, and ends in what realizes it. -/
theorem realizes_run (uninitialised : Nat → UInt8) {path : CircularFilePath} {spec : QueuePath}
    (h : Realizes path spec) {events : List CircularFileEvent}
    (hevents : EachStep (CircularFilePath.next uninitialised) CircularFilePath.Admissible path
      events) :
    outputs (CircularFilePath.step uninitialised) path events =
        outputs QueuePath.step spec events ∧
      Realizes (run (CircularFilePath.next uninitialised) path events)
        (run QueuePath.next spec events) := by
  induction events generalizing path spec with
  | nil => exact ⟨rfl, h⟩
  | cons event events ih =>
    obtain ⟨hevent, hrest⟩ := (eachStep_cons _ _ _ _ _).mp hevents
    obtain ⟨hreply, hnext⟩ := h.step uninitialised hevent
    obtain ⟨houtputs, hfinal⟩ := ih hnext hrest
    refine ⟨?_, hfinal⟩
    rw [outputs, outputs, hreply, houtputs]

/-! ## 5. Opening at another size keeps what fits -/

/-- The elements that reading everything answers. -/
def EmerCircularFile.savedElems (file : EmerCircularFile) : List Bytes :=
  match (file.read (2 ^ 64 - 1) true).1 with
  | .ok result => result.elems
  | .error _ => []

theorem RefinesOpened.savedElems_eq {client : CircularFileClient} {capacity : Nat}
    {spec : QueueClient} (h : RefinesOpened client capacity spec) :
    client.file.savedElems = spec.queue.saved ∧
      client.file.size = (spec.queue.saved.map frameLength).sum ∧
      client.file.maxSize = capacity := by
  cases h with
  | nothing h =>
    have hread : client.file.read (2 ^ 64 - 1) true = (.ok ⟨[], 0⟩, false, client.file) :=
      if_pos h.size_eq
    rw [EmerCircularFile.savedElems, hread, h.queue_eq]
    exact ⟨rfl, h.size_eq, h.maxSize_eq⟩
  | queue h =>
    obtain ⟨contents, hholds⟩ := h.holds
    have hfits := hholds.fits
    have hlt := hholds.maxSize_lt
    have hsize := hholds.size_eq
    -- the budget is larger than any file
    have hall : spec.queue.read List.length (2 ^ 64 - 1) = spec.queue.saved :=
      takeWithin_of_sum_le ((sum_length_le_length_encode _).trans (by omega))
    rw [EmerCircularFile.savedElems, hholds.read_eq, hall, ← length_encode]
    exact ⟨rfl, hsize, h.maxSize_eq⟩

/-- **Opening at another maximum size keeps the longest prefix of the queue that fits, starting at
the head 0, and goes on as a queue of that capacity.** -/
theorem resizing_keeps_first_elements (uninitialised : Nat → UInt8)
    (events : List CircularFileEvent)
    (hevents : EachStep (CircularFilePath.next uninitialised) CircularFilePath.Admissible .absent
      events)
    (client : CircularFileClient)
    (hclient : run (CircularFilePath.next uninitialised) .absent events = .opened client)
    (maxSize : Nat) (hpos : 1 ≤ maxSize) (hmaxSize : maxSize < 2 ^ 64)
    (file : EmerCircularFile) (disk : CircularFileOnDisk)
    (hnew : EmerCircularFile.new client.file.disk maxSize false uninitialised .none =
      (.ok file, disk)) :
    client.file.savedElems = (run QueuePath.next .absent events).saved ∧
      IsLongestPrefix frameLength (min maxSize client.file.size) file.savedElems
        client.file.savedElems ∧
      (client.file.size ≤ maxSize → file.savedElems = client.file.savedElems) ∧
      (maxSize ≠ client.file.maxSize → file.head = 0) ∧
      ∀ ops, EachStep (fun client op => (client.call uninitialised op).1)
          CircularFileClient.Admissible ⟨file, []⟩ ops →
        outputs (CircularFileClient.call uninitialised) ⟨file, []⟩ ops =
          outputs (QueueClient.call maxSize) ⟨⟨file.savedElems, []⟩, []⟩ ops := by
  obtain ⟨-, hfinal⟩ := realizes_run uninitialised realizes_absent hevents
  rw [hclient] at hfinal
  generalize run QueuePath.next .absent events = path at hfinal ⊢
  cases hfinal with
  | @opened _ capacity spec hopened =>
  obtain ⟨hold, hsize, hcapacity⟩ := hopened.savedElems_eq
  have hdisk := hopened.onDisk
  -- files of no capacity cannot be opened again
  have hnonzero : some capacity ≠ some 0 := by
    intro hzero
    cases hopened with
    | nothing h =>
      have hnothing : NothingOnDisk True client.file.disk client.file.metadataKeyFile :=
        ⟨⟨[], h.dataFile, fun _ => rfl⟩, h.metadataFile, h.describes⟩
      rw [hnothing.new_eq] at hnew
      cases (Prod.mk.inj hnew).1
    | queue h =>
      obtain ⟨contents, hholds⟩ := h.holds
      have hhead := hholds.head_lt
      have hcapacity := h.maxSize_eq
      rw [Option.some.inj hzero] at hcapacity
      omega
  obtain ⟨file', hnew', hrefines, hhead⟩ := hdisk.new_refines hnonzero hmaxSize uninitialised
  rw [hnew'] at hnew
  obtain rfl : file' = file := Except.ok.inj (Prod.mk.inj hnew).1
  obtain ⟨hkept, -, -⟩ := hrefines.savedElems_eq
  have hmin : takeWithin frameLength (min maxSize client.file.size) spec.queue.saved =
      takeWithin frameLength maxSize spec.queue.saved := by
    rw [hsize, ← length_encode, Nat.min_comm]
    exact StoredOnDisk.takeWithin_min spec.queue.saved maxSize
  refine ⟨hold, ?_, fun hle => ?_, fun hne => hhead fun heq => hne ?_, fun ops hops => ?_⟩
  · rw [hkept, hold, ← hmin]
    exact takeWithin_isLongestPrefix frameLength _ _
  · rw [hkept, hold]
    exact takeWithin_of_sum_le (by rwa [← hsize])
  · rw [hcapacity]
    exact (Option.some.inj heq).symm
  · rw [hkept]
    cases hrefines with
    | nothing => exact absurd hpos (by decide)
    | queue hrefines => exact (hrefines.outputs_eq uninitialised hops).1

/-- A file of 24 bytes whose second element goes round the end is opened at 20 and takes one element
more. -/
def shrinkingRun : List CircularFileEvent :=
  [.new 24, .call (.append [1, 2, 3]), .call .save, .call (.append [4, 5]), .call .save,
    .call (.read 3), .call (.remove 0), .call (.append [6, 7, 8, 9]), .call .save]

theorem resizing_keeps_first_elements_shrinkingRun :
    ∃ client file disk, run (CircularFilePath.next fun _ => 0) .absent shrinkingRun =
        .opened client ∧
      EmerCircularFile.new client.file.disk 20 false (fun _ => 0) .none = (.ok file, disk) ∧
      IsLongestPrefix frameLength (min 20 client.file.size) file.savedElems
        client.file.savedElems :=
  ⟨_, _, _, rfl, rfl, (resizing_keeps_first_elements (fun _ => 0) shrinkingRun (by decide) _ rfl 20
    (by decide) (by decide) _ _ rfl).2.1⟩

/-! ## 6. Opening what was written -/

/-- The maximum sizes that a run opens the path at, in order. -/
def maxSizes (events : List CircularFileEvent) : List Nat :=
  events.filterMap fun event =>
    match event with
    | .new maxSize => some maxSize
    | .call _ => none

theorem newSucceeds_iff (uninitialised : Nat → UInt8) {path : CircularFilePath} {spec : QueuePath}
    (h : Realizes path spec) {maxSize : Nat} (hmaxSize : maxSize < 2 ^ 64) :
    path.NewSucceeds uninitialised (.new maxSize) ↔ spec.capacity ≠ some 0 := by
  have hdisk := h.onDisk
  unfold CircularFilePath.NewSucceeds
  by_cases hcapacity : spec.capacity = some 0
  · rw [hcapacity] at hdisk ⊢
    generalize spec.saved = saved at hdisk
    cases hdisk with
    | nothing hnothing =>
      simp only [hnothing.new_eq]
      decide
    | stored hstored => exact absurd hstored.head_lt (Nat.not_lt_zero _)
  · obtain ⟨file, hnew, -⟩ := hdisk.new_refines hcapacity hmaxSize uninitialised
    simp only [hnew]
    exact iff_of_true rfl hcapacity

/-- From any point of a run on, the sizes to come and the one the files have now decide. -/
theorem eachStep_newSucceeds_iff (uninitialised : Nat → UInt8) {path : CircularFilePath}
    {spec : QueuePath} (h : Realizes path spec) {events : List CircularFileEvent}
    (hevents : EachStep (CircularFilePath.next uninitialised) CircularFilePath.Admissible path
      events) :
    EachStep (CircularFilePath.next uninitialised)
        (CircularFilePath.NewSucceeds uninitialised) path events ↔
      0 ∉ (spec.capacity.toList ++ maxSizes events).dropLast := by
  induction events generalizing path spec with
  | nil =>
    refine iff_of_true (eachStep_nil _ _ _) ?_
    cases spec.capacity <;> simp [maxSizes]
  | cons event events ih =>
    obtain ⟨hevent, hrest⟩ := (eachStep_cons _ _ _ _ _).mp hevents
    obtain ⟨-, hnext⟩ := h.step uninitialised hevent
    have ih := ih hnext hrest
    rw [eachStep_cons]
    cases event with
    | new maxSize =>
      have hsizes : maxSizes (.new maxSize :: events) = maxSize :: maxSizes events := rfl
      rw [newSucceeds_iff uninitialised h hevent, hsizes,
        List.dropLast_append_of_ne_nil (List.cons_ne_nil _ _), List.mem_append, not_or]
      by_cases hcapacity : spec.capacity = some 0
      -- the path is opened again although the last size was zero
      · rw [hcapacity]
        simp
      · have hopened : (spec.step (.new maxSize)).1.capacity = some maxSize := by
          rw [QueuePath.step, if_neg hcapacity]
          rfl
        rw [CircularFilePath.next, ih, hopened, Option.toList_some, List.singleton_append]
        exact Iff.and (by simp) Iff.rfl
    | call op =>
      have hsizes : maxSizes (.call op :: events) = maxSizes events := rfl
      have hcapacity : (spec.step (.call op)).1.capacity = spec.capacity := by
        cases spec <;> rfl
      rw [CircularFilePath.next, ih, hsizes, hcapacity]
      exact and_iff_right trivial

/-- **Whatever the circular file writes it can open again, unless it was opened at a maximum size of
zero before.** -/
theorem every_new_succeeds_iff (uninitialised : Nat → UInt8) (events : List CircularFileEvent)
    (hevents : EachStep (CircularFilePath.next uninitialised) CircularFilePath.Admissible .absent
      events) :
    EachStep (CircularFilePath.next uninitialised) (CircularFilePath.NewSucceeds uninitialised)
        .absent events ↔
      0 ∉ (maxSizes events).dropLast :=
  eachStep_newSucceeds_iff uninitialised realizes_absent hevents

theorem every_new_succeeds_iff_shrinkingRun :
    EachStep (CircularFilePath.next fun _ => 0) (CircularFilePath.NewSucceeds fun _ => 0) .absent
        (shrinkingRun ++ [.new 0]) ↔
      0 ∉ (maxSizes (shrinkingRun ++ [.new 0])).dropLast :=
  every_new_succeeds_iff (fun _ => 0) (shrinkingRun ++ [.new 0]) (by decide)

/-- A file opened at a maximum size of 0 cannot be opened at 64. -/
theorem not_every_new_succeeds :
    EachStep (CircularFilePath.next fun _ => 0) CircularFilePath.Admissible .absent
        [.new 0, .new 64] ∧
      ¬ EachStep (CircularFilePath.next fun _ => 0) (CircularFilePath.NewSucceeds fun _ => 0)
        .absent [.new 0, .new 64] := by
  refine ⟨by decide, fun h => ?_⟩
  have hsecond := h [.new 0] (.new 64) (List.prefix_refl _)
  revert hsecond
  unfold CircularFilePath.NewSucceeds
  decide

end EventRecorder
