import EventRecorder.CircularFile.Metadata
import EventRecorder.Theory.Run

/-!
# The circular file is a bounded queue

A client appends, saves, reads, removes what it has read, purges and opens the file again.  It
refers to a read that it wants to remove by its place among the reads since the last remove or
purge; a place that does not exist stands for the token 0.  The same client over a queue counts
elements where the circular file counts bytes.
-/

namespace EventRecorder

open Theory

inductive CircularFileOp where
  | append (elem : Bytes)
  | save
  | read (dataBytesToRead : Nat)
  | hasMore (token : Nat)
  | remove (token : Nat)
  | purge
  | reopen
  deriving DecidableEq, Repr

/-- What a call answers. -/
inductive CircularFileReply where
  | accepted (accepted : Bool)
  | done (result : Except GError Unit)
  | elems (result : Except GError (List Bytes)) (hasInvalid : Bool)
  | more (more : Bool)
  deriving DecidableEq

/-! ## 1. The client of a circular file -/

structure CircularFileClient where
  file : EmerCircularFile
  tokens : List Nat

namespace CircularFileClient

def token (client : CircularFileClient) (place : Nat) : Nat :=
  client.tokens[place]?.getD 0

/-- A successful remove or purge takes back all tokens. -/
def afterRemoval (client : CircularFileClient)
    (result : Except GError Unit × EmerCircularFile) : CircularFileClient :=
  { file := result.2
    tokens := match result.1 with
      | .ok () => []
      | .error _ => client.tokens }

def afterRead (client : CircularFileClient)
    (result : Except GError EmerCircularFile.ReadResult × Bool × EmerCircularFile) :
    CircularFileClient × CircularFileReply :=
  match result with
  | (.ok answer, hasInvalid, file) =>
    (⟨file, client.tokens ++ [answer.token]⟩, .elems (.ok answer.elems) hasInvalid)
  | (.error e, hasInvalid, file) => ({ client with file := file }, .elems (.error e) hasInvalid)

def afterReopen (client : CircularFileClient)
    (result : Except GError EmerCircularFile × CircularFileOnDisk) :
    CircularFileClient × CircularFileReply :=
  match result with
  | (.ok file, _) => ({ client with file := file }, .done (.ok ()))
  | (.error e, disk) =>
    ({ client with file := { client.file with disk := disk } }, .done (.error e))

/-- One call, with every file operation succeeding. -/
def call (uninitialised : Nat → UInt8) (client : CircularFileClient) :
    CircularFileOp → CircularFileClient × CircularFileReply
  | .append elem =>
    let result := client.file.append elem
    ({ client with file := result.2 }, .accepted result.1)
  | .save =>
    let result := client.file.save .none
    ({ client with file := result.2 }, .done result.1)
  | .read dataBytesToRead => client.afterRead (client.file.read dataBytesToRead true)
  | .hasMore place => (client, .more (client.file.hasMore (client.token place)))
  | .remove place =>
    let result := client.file.remove (client.token place) true
    (client.afterRemoval result, .done result.1)
  | .purge =>
    let result := client.file.purge true
    (client.afterRemoval result, .done result.1)
  | .reopen =>
    client.afterReopen
      (EmerCircularFile.new client.file.disk client.file.maxSize false uninitialised .none)

/-- Elements are not empty, and the sums that the call computes stay below `2^63`, the length of the
write buffer below `2^32`. -/
def Admissible (client : CircularFileClient) : CircularFileOp → Prop
  | .append elem =>
    elem ≠ [] ∧ client.file.size + client.file.writeBuffer.length + (8 + elem.length) < 2 ^ 63 ∧
      client.file.writeBuffer.length + (8 + elem.length) < 2 ^ 32
  | .save => client.file.head + client.file.size < 2 ^ 63
  | .remove place => client.file.head + client.token place < 2 ^ 63
  | _ => True

instance (client : CircularFileClient) : ∀ op, Decidable (client.Admissible op)
  | .append _ => inferInstanceAs (Decidable (_ ∧ _ ∧ _))
  | .save => inferInstanceAs (Decidable (_ < _))
  | .remove _ => inferInstanceAs (Decidable (_ < _))
  | .read _ => isTrue trivial
  | .hasMore _ => isTrue trivial
  | .purge => isTrue trivial
  | .reopen => isTrue trivial

/-- A read of any budget would change nothing and find nothing invalid. -/
def ReadsChangeNothing (client : CircularFileClient) : Prop :=
  ∀ budget, (client.file.read budget true).2 = (false, client.file)

end CircularFileClient

/-! ## 2. The client of a queue -/

structure QueueClient where
  queue : Fifo Bytes
  counts : List Nat

namespace QueueClient

def empty : QueueClient := ⟨Fifo.empty, []⟩

def count (client : QueueClient) (place : Nat) : Nat :=
  client.counts[place]?.getD 0

def call (maxSize : Nat) (client : QueueClient) :
    CircularFileOp → QueueClient × CircularFileReply
  | .append elem =>
    let result := client.queue.append frameLength maxSize elem
    ({ client with queue := result.2 }, .accepted result.1)
  | .save => ({ client with queue := client.queue.save }, .done (.ok ()))
  | .read dataBytesToRead =>
    let elems := client.queue.read List.length dataBytesToRead
    ({ client with counts := client.counts ++ [elems.length] }, .elems (.ok elems) false)
  | .hasMore place => (client, .more (client.queue.hasMore (client.count place)))
  | .remove place => (⟨client.queue.remove (client.count place), []⟩, .done (.ok ()))
  | .purge => (⟨client.queue.purge, []⟩, .done (.ok ()))
  | .reopen => ({ client with queue := client.queue.reopen }, .done (.ok ()))

end QueueClient

/-! ## 3. The simulation -/

/-- The bytes on disk of the first `n` saved elements. -/
def tokenOf (q : Fifo Bytes) (n : Nat) : Nat :=
  (encode (q.saved.take n)).length

/-- Saving more elements does not move the ones a token stands for. -/
theorem tokenOf_save (q : Fifo Bytes) {n : Nat} (hn : n ≤ q.saved.length) :
    tokenOf q.save n = tokenOf q n := by
  rw [tokenOf, Fifo.save, List.take_append_of_le_length hn, tokenOf]

structure Refines (maxSize : Nat) (client : CircularFileClient) (spec : QueueClient) : Prop where
  maxSize_eq : client.file.maxSize = maxSize
  synced : client.file.Synced
  holds : ∃ contents, Holds client.file contents spec.queue
  tokens_eq : client.tokens = spec.counts.map (tokenOf spec.queue)
  counts_le : ∀ n ∈ spec.counts, n ≤ spec.queue.saved.length

namespace Refines

variable {maxSize : Nat} {client : CircularFileClient} {spec : QueueClient}

theorem token_eq (h : Refines maxSize client spec) (place : Nat) :
    client.token place = tokenOf spec.queue (spec.count place) := by
  rw [CircularFileClient.token, h.tokens_eq, QueueClient.count, List.getElem?_map]
  cases spec.counts[place]? <;> rfl

theorem append (h : Refines maxSize client spec) {elem : Bytes}
    (hok : client.Admissible (.append elem)) :
    (client.file.append elem).1 = (spec.queue.append frameLength maxSize elem).1 ∧
      Refines maxSize { client with file := (client.file.append elem).2 }
        { spec with queue := (spec.queue.append frameLength maxSize elem).2 } := by
  obtain ⟨contents, hholds⟩ := h.holds
  obtain ⟨helem, hsum, hbuffer⟩ := hok
  obtain ⟨hreply, hnext⟩ := hholds.append_spec helem (by omega) fun _ => by omega
  have hsaved : (spec.queue.append frameLength maxSize elem).2.saved = spec.queue.saved := by
    rw [Fifo.append]
    split <;> rfl
  have hmaxSize := client.file.append_maxSize elem
  rw [h.maxSize_eq] at hreply hnext
  refine ⟨hreply, hmaxSize.trans h.maxSize_eq, h.synced.append elem, ⟨contents, hnext⟩, ?_, ?_⟩
  -- the tokens only depend on the saved elements
  · have htokens : tokenOf (spec.queue.append frameLength maxSize elem).2 = tokenOf spec.queue := by
      funext n
      rw [tokenOf, hsaved, tokenOf]
    rw [htokens]
    exact h.tokens_eq
  · rw [hsaved]
    exact h.counts_le

theorem save (h : Refines maxSize client spec) (hok : client.Admissible .save) :
    (client.file.save .none).1 = .ok () ∧
      Refines maxSize { client with file := (client.file.save .none).2 }
        { spec with queue := spec.queue.save } := by
  obtain ⟨contents, hholds⟩ := h.holds
  have hfits := hholds.fits
  have hlt := hholds.maxSize_lt
  have hoffset : client.file.head + client.file.size < 2 ^ 63 := hok
  have hdone := EmerCircularFile.save_none_ok (by omega) hholds.dataFile
  -- the operations below succeed, so of the two ways to end only the first is left
  obtain ⟨contents', ⟨hreply, hnext⟩ | ⟨hreply, -⟩⟩ := hholds.save_spec (by omega) .none
  · refine ⟨hreply, (client.file.save_maxSize .none).trans h.maxSize_eq, h.synced.save (by omega),
      ⟨contents', hnext⟩, ?_, fun n hn => ?_⟩
    · rw [h.tokens_eq]
      exact List.map_congr_left fun n hn => (tokenOf_save spec.queue (h.counts_le n hn)).symm
    · rw [Fifo.save, List.length_append]
      have := h.counts_le n hn
      omega
  · rw [hdone] at hreply
    cases hreply

theorem read (h : Refines maxSize client spec) (budget : Nat) :
    client.file.read budget true =
        (.ok ⟨spec.queue.read List.length budget,
          tokenOf spec.queue (spec.queue.read List.length budget).length⟩, false, client.file) ∧
      (spec.queue.read List.length budget).length ≤ spec.queue.saved.length := by
  obtain ⟨contents, hholds⟩ := h.holds
  have hfront := takeWithin_isPrefix List.length budget spec.queue.saved
  rw [hholds.read_eq, tokenOf, Fifo.read, ← List.prefix_iff_eq_take.mp hfront]
  exact ⟨rfl, hfront.length_le⟩

/-- After a removal no tokens are left to stand for anything. -/
theorem ofRemoval {file : EmerCircularFile} {contents : Bytes} {q : Fifo Bytes}
    (hmaxSize : file.maxSize = maxSize) (hsynced : file.Synced) (hholds : Holds file contents q) :
    Refines maxSize ⟨file, []⟩ ⟨q, []⟩ :=
  ⟨hmaxSize, hsynced, ⟨contents, hholds⟩, rfl, fun n hn => by simp at hn⟩

theorem remove (h : Refines maxSize client spec) {place : Nat}
    (hok : client.Admissible (.remove place)) :
    (client.file.remove (client.token place) true).1 = .ok () ∧
      Refines maxSize ⟨(client.file.remove (client.token place) true).2, []⟩
        ⟨spec.queue.remove (spec.count place), []⟩ := by
  obtain ⟨contents, hholds⟩ := h.holds
  have hoffset : client.file.head + client.token place < 2 ^ 63 := hok
  have hsynced := h.synced.remove hoffset
  have hmaxSize := (client.file.remove_maxSize (client.token place) true).trans h.maxSize_eq
  rw [h.token_eq] at hoffset hsynced hmaxSize ⊢
  obtain ⟨hreply, hnext⟩ | ⟨-, hsaved, -⟩ := hholds.remove_spec (n := spec.count place) (by
    rw [← tokenOf]
    omega) true
  · exact ⟨hreply, ofRemoval hmaxSize hsynced hnext⟩
  · cases hsaved

theorem purge (h : Refines maxSize client spec) :
    (client.file.purge true).1 = .ok () ∧
      Refines maxSize ⟨(client.file.purge true).2, []⟩ ⟨spec.queue.purge, []⟩ := by
  obtain ⟨contents, hholds⟩ := h.holds
  have hmaxSize := (client.file.purge_maxSize true).trans h.maxSize_eq
  obtain ⟨hreply, hnext⟩ | ⟨-, hsaved, -⟩ := hholds.purge_spec true
  · exact ⟨hreply, ofRemoval hmaxSize h.synced.purge hnext⟩
  · cases hsaved

theorem reopen (h : Refines maxSize client spec) (uninitialised : Nat → UInt8) :
    ∃ file disk,
      EmerCircularFile.new client.file.disk client.file.maxSize false uninitialised .none =
        (.ok file, disk) ∧
      Refines maxSize { client with file := file } { spec with queue := spec.queue.reopen } := by
  obtain ⟨contents, hholds⟩ := h.holds
  have hfits := hholds.fits
  have hnew := new_of_describes hholds.dataFile h.synced.onDisk h.synced.describes (by omega)
    hholds.head_lt uninitialised
  refine ⟨_, _, hnew, h.maxSize_eq, ⟨h.synced.onDisk, h.synced.describes⟩, ⟨contents, ?_⟩,
    h.tokens_eq, h.counts_le⟩
  -- the write buffer is in memory only
  refine { hholds with writeBuffer_eq := rfl, fits := ?_, nonempty := fun elem he => ?_ }
  · show client.file.size + 0 ≤ client.file.maxSize
    omega
  · exact hholds.nonempty_saved elem (by rwa [Fifo.reopen, List.append_nil] at he)

/-- Every admissible call answers as the queue does and keeps the two related. -/
theorem call (uninitialised : Nat → UInt8) (h : Refines maxSize client spec)
    {op : CircularFileOp} (hok : client.Admissible op) :
    (client.call uninitialised op).2 = (spec.call maxSize op).2 ∧
      Refines maxSize (client.call uninitialised op).1 (spec.call maxSize op).1 := by
  cases op with
  | append elem =>
    obtain ⟨hreply, hnext⟩ := h.append hok
    exact ⟨congrArg CircularFileReply.accepted hreply, hnext⟩
  | save =>
    obtain ⟨hreply, hnext⟩ := h.save hok
    exact ⟨congrArg CircularFileReply.done hreply, hnext⟩
  | read budget =>
    obtain ⟨hread, hle⟩ := h.read budget
    rw [CircularFileClient.call, hread]
    refine ⟨rfl, h.maxSize_eq, h.synced, h.holds, ?_, fun n hn => ?_⟩
    · simp only [QueueClient.call, CircularFileClient.afterRead, List.map_append,
        List.map_singleton, ← h.tokens_eq]
    · rcases List.mem_append.mp hn with hold | hnew
      · exact h.counts_le n hold
      · rw [List.mem_singleton.mp hnew]
        exact hle
  | hasMore place =>
    obtain ⟨contents, hholds⟩ := h.holds
    refine ⟨congrArg CircularFileReply.more ?_, h⟩
    rw [h.token_eq]
    exact hholds.hasMore_eq (spec.count place)
  | remove place =>
    obtain ⟨hreply, hnext⟩ := h.remove hok
    refine ⟨congrArg CircularFileReply.done hreply, ?_⟩
    simp only [CircularFileClient.call, CircularFileClient.afterRemoval, hreply]
    exact hnext
  | purge =>
    obtain ⟨hreply, hnext⟩ := h.purge
    refine ⟨congrArg CircularFileReply.done hreply, ?_⟩
    simp only [CircularFileClient.call, CircularFileClient.afterRemoval, hreply]
    exact hnext
  | reopen =>
    obtain ⟨file, disk, hnew, hnext⟩ := h.reopen uninitialised
    rw [CircularFileClient.call, hnew]
    exact ⟨rfl, hnext⟩

theorem readsChangeNothing (h : Refines maxSize client spec) : client.ReadsChangeNothing := by
  intro budget
  rw [(h.read budget).1]

/-- A run of admissible calls over a file that holds a queue answers as the queue does. -/
theorem outputs_eq (uninitialised : Nat → UInt8) (h : Refines maxSize client spec)
    {ops : List CircularFileOp}
    (hops : EachStep (fun client op => (client.call uninitialised op).1)
      CircularFileClient.Admissible client ops) :
    outputs (CircularFileClient.call uninitialised) client ops =
        outputs (QueueClient.call maxSize) spec ops ∧
      Throughout (fun client op => (client.call uninitialised op).1)
        (fun client => ∃ spec, Refines maxSize client spec) client ops :=
  outputs_of_simulation (fun _ _ _ hR hok => hR.call uninitialised hok) h hops

end Refines

/-! ## 4. A fresh file -/

theorem refines_of_empty {contents : Bytes} {keyFile : KeyFile} {maxSize : Nat}
    (hpos : 1 ≤ maxSize) (hmaxSize : maxSize < 2 ^ 64) (hcontents : contents.length ≤ maxSize)
    (hkeyFile : Describes keyFile maxSize 0 0) :
    Refines maxSize
      ⟨{ disk := ⟨some contents, .parsed keyFile⟩, metadataKeyFile := keyFile, writeBuffer := []
         maxSize := maxSize, size := 0, head := 0 }, []⟩ QueueClient.empty :=
  ⟨rfl, ⟨rfl, hkeyFile⟩, ⟨contents, holds_empty hpos hmaxSize hcontents⟩, rfl,
    fun n hn => by simp [QueueClient.empty] at hn⟩

/-- The client of a circular file that has just been opened over the given files. -/
def openedOver (disk : CircularFileOnDisk) (maxSize : Nat) (reinitialized : Bool)
    (uninitialised : Nat → UInt8) : Except GError CircularFileClient :=
  match (EmerCircularFile.new disk maxSize reinitialized uninitialised .none).1 with
  | .ok file => .ok ⟨file, []⟩
  | .error e => .error e

/-- **A circular file created over an absent data file answers every run as a bounded queue does,
and reading changes nothing.** -/
theorem circularFile_refines_fifo (maxSize : Nat) (hpos : 1 ≤ maxSize) (hmaxSize : maxSize < 2 ^ 64)
    (reinitialized : Bool) (uninitialised : Nat → UInt8) (ops : List CircularFileOp) :
    ∃ client, openedOver ⟨none, .absent⟩ maxSize reinitialized uninitialised = .ok client ∧
      (EachStep (fun client op => (client.call uninitialised op).1)
          CircularFileClient.Admissible client ops →
        outputs (CircularFileClient.call uninitialised) client ops =
            outputs (QueueClient.call maxSize) QueueClient.empty ops ∧
          Throughout (fun client op => (client.call uninitialised op).1)
            CircularFileClient.ReadsChangeNothing client ops) := by
  obtain ⟨keyFile, hkeyFile, hnew⟩ :=
    new_of_needsInit (show NeedsInit ⟨none, .absent⟩ reinitialized from .inr (.inl rfl)) hmaxSize
      uninitialised
  refine ⟨_, by rw [openedOver, hnew], fun hops => ?_⟩
  obtain ⟨houtputs, hthroughout⟩ :=
    (refines_of_empty hpos hmaxSize (Nat.zero_le _) hkeyFile).outputs_eq uninitialised hops
  exact ⟨houtputs, hthroughout.mono fun client ⟨_, h⟩ => h.readsChangeNothing⟩

/-- A run in a file of 24 bytes that goes round the end in the middle of the third element's
length. -/
def wrappingRun : List CircularFileOp :=
  [.append [1, 2, 3], .save, .append [4, 5], .save, .read 3, .hasMore 0, .remove 0,
    .append [6, 7, 8, 9], .save, .read 6, .reopen, .append [10], .hasMore 0, .remove 0, .read 1]

theorem circularFile_refines_fifo_wrappingRun :
    ∃ client, openedOver ⟨none, .absent⟩ 24 false (fun _ => 0) = .ok client ∧
      outputs (CircularFileClient.call fun _ => 0) client wrappingRun =
        outputs (QueueClient.call 24) QueueClient.empty wrappingRun := by
  obtain ⟨client, hclient, hrun⟩ :=
    circularFile_refines_fifo 24 (by decide) (by decide) false (fun _ => 0) wrappingRun
  refine ⟨client, hclient, (hrun ?_).1⟩
  obtain rfl := Except.ok.inj hclient
  decide

end EventRecorder
