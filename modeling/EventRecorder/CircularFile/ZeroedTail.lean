import EventRecorder.CircularFile.Refinement

/-!
# Queues whose last blocks were lost

A crash can leave zeros where the last elements were saved.  A length of zero ends a read, which
then records that the ring goes no further.  What is left is the queue of the elements in front.
-/

namespace EventRecorder

open Theory

/-! ## 1. Losing the bytes behind an offset -/

/-- The object over a data file whose live bytes from an offset onwards have become zeros. -/
def EmerCircularFile.loseFrom (self : EmerCircularFile) (offset : Nat) : EmerCircularFile :=
  { self with
    disk := { self.disk with
      dataFile := self.disk.dataFile.map fun contents =>
        contents.mapIdx fun position byte =>
          let place := (position + (self.maxSize - self.head)) % self.maxSize
          if offset ≤ place ∧ place < self.size then 0 else byte } }

/-- The place in the ring of a position in the data file. -/
theorem ringPlace {M p i : Nat} (hp : p < M) (hi : i < M) : ((p + i) % M + (M - p)) % M = i := by
  rw [Nat.mod_add_mod, show p + i + (M - p) = i + M by omega, Nat.add_mod_right,
    Nat.mod_eq_of_lt hi]

theorem HoldsBytes.loseFrom {file : EmerCircularFile} {contents front rest : Bytes}
    (h : HoldsBytes file contents (front ++ rest)) :
    ∃ contents', HoldsBytes (file.loseFrom front.length) contents'
      (front ++ List.replicate rest.length 0) := by
  have hsize := h.size_eq
  have hle := h.size_le
  have hhead := h.head_lt
  have hphysical := h.stored.physical
  have hfilled := h.stored.filled
  rw [List.length_append] at hsize hfilled
  refine ⟨_, by rw [EmerCircularFile.loseFrom, h.dataFile]; rfl, h.maxSize_lt, ?_, hle, hhead,
    ?_, fun i hi => ?_, ?_⟩
  · rw [List.length_append, List.length_replicate]
    exact hsize
  · rwa [List.length_mapIdx]
  · rw [List.length_append, List.length_replicate] at hi
    show (contents.mapIdx _)[(file.head + i) % file.maxSize]? = _
    rw [List.getElem?_mapIdx, h.stored.ring i (by rw [List.length_append]; omega),
      ringPlace hhead (by omega)]
    by_cases hfront : i < front.length
    · rw [List.getElem?_append_left hfront, List.getElem?_append_left hfront,
        List.getElem?_eq_getElem hfront, Option.map_some, if_neg (by omega)]
    · rw [List.getElem?_append_right (by omega), List.getElem?_append_right (by omega),
        List.getElem?_eq_getElem (by omega), Option.map_some, if_pos (by omega),
        List.getElem?_replicate, if_pos (by omega)]
  · rw [List.length_mapIdx, List.length_append, List.length_replicate]
    exact hfilled

/-- Zeros in place of a frame begin with a length of zero. -/
theorem replicate_zero_length_encode {elems : List Bytes} (hne : elems ≠ []) :
    ∃ more, List.replicate (encode elems).length 0 = toLittleEndian 8 0 ++ more := by
  cases elems with
  | nil => exact absurd rfl hne
  | cons elem elems =>
    refine ⟨List.replicate (elem.length + (encode elems).length) 0, ?_⟩
    rw [length_encode_cons, Nat.add_assoc, List.replicate_add]
    rfl

/-! ## 2. Reading what is left -/

/-- Every run of admissible calls from here on is answered as by a queue. -/
def AnswersAsQueue (uninitialised : Nat → UInt8) (client : CircularFileClient)
    (spec : QueueClient) : Prop :=
  ∀ ops, EachStep (fun client op => (client.call uninitialised op).1)
      CircularFileClient.Admissible client ops →
    outputs (CircularFileClient.call uninitialised) client ops =
      outputs (QueueClient.call client.file.maxSize) spec ops

namespace Holds

variable {file : EmerCircularFile} {contents : Bytes} {q : Fifo Bytes}

/-- The read that finds the zeros returns the elements in front of them, and the ring ends there. -/
theorem read_loseFrom (h : Holds file contents q) {k budget : Nat} (hk : k < q.saved.length)
    (hbudget : ((q.saved.take k).map List.length).sum ≤ budget) {lost : EmerCircularFile}
    (hlost : lost = file.loseFrom (encode (q.saved.take k)).length) :
    ∃ contents', lost.read budget true =
        (.ok ⟨q.saved.take k, (encode (q.saved.take k)).length⟩, true,
          (lost.setMetadata (encode (q.saved.take k)).length lost.head true).2) ∧
      Holds (lost.setMetadata (encode (q.saved.take k)).length lost.head true).2 contents'
        ⟨q.saved.take k, q.unsaved⟩ := by
  have hbytes := h.holdsBytes
  have hfits := h.fits
  have hsize := h.size_split k
  rw [← List.take_append_drop k q.saved, encode_append] at hbytes
  obtain ⟨contents', hzeros⟩ := hbytes.loseFrom
  rw [← hlost] at hzeros
  have hfront : ∀ elem ∈ q.saved.take k, elem ≠ [] := fun elem helem =>
    h.nonempty_saved elem (List.mem_of_mem_take helem)
  have hbehind : q.saved.drop k ≠ [] := by
    rw [Ne, List.drop_eq_nil_iff]
    omega
  have hzero := replicate_zero_length_encode hbehind
  have htail : List.replicate (encode (q.saved.drop k)).length (0 : UInt8) ≠ [] := by
    rw [Ne, List.replicate_eq_nil_iff, length_encode_eq_zero]
    exact hbehind
  have hread := hzeros.read_eq hfront (.inr hzero) budget true (takeWithin_of_sum_le hbudget).symm
  rw [if_pos ⟨rfl, htail⟩, decide_eq_true ⟨rfl, htail⟩] at hread
  have hbuffer : lost.writeBuffer = file.writeBuffer := by rw [hlost]; rfl
  have hmaxSize : lost.maxSize = file.maxSize := by rw [hlost]; rfl
  refine ⟨contents', hread, ofBytes hzeros.cut_off (hbuffer.trans h.writeBuffer_eq) ?_ ?_⟩
  · show (encode (q.saved.take k)).length + lost.writeBuffer.length ≤ lost.maxSize
    rw [hbuffer, hmaxSize]
    omega
  · intro elem helem
    apply h.nonempty elem
    exact List.mem_append.mpr ((List.mem_append.mp helem).imp List.mem_of_mem_take id)

end Holds

/-- Removing everything that the ring holds. -/
theorem EmerCircularFile.remove_size (self : EmerCircularFile) (hsize : self.size < 2 ^ 64) :
    (self.remove self.size true).1 = .ok () ∧ (self.remove self.size true).2.size = 0 := by
  unfold EmerCircularFile.remove
  split
  · rename_i hzero
    exact ⟨rfl, hzero⟩
  · refine ⟨rfl, ?_⟩
    show (self.size + (2 ^ 64 - self.size)) % 2 ^ 64 = 0
    omega

theorem Refines.answersAsQueue {maxSize : Nat} {client : CircularFileClient} {spec : QueueClient}
    (h : Refines maxSize client spec) (uninitialised : Nat → UInt8) :
    AnswersAsQueue uninitialised client spec := by
  intro ops hops
  rw [h.maxSize_eq]
  exact (h.outputs_eq uninitialised hops).1

/-- **A queue whose saved elements from the `k`-th on have become zeros is cut off in front of them:
the read that finds this returns the first `k` elements and leaves the queue of these, in memory and
on disk.** -/
theorem zeroedTail_cut_off {file : EmerCircularFile} {contents : Bytes} {q : Fifo Bytes}
    (h : Holds file contents q)
    (hmaxSize : file.metadataKeyFile.getUint64 metadataGroupName maxSizeKey = .ok file.maxSize)
    (hhead : file.head < 2 ^ 63) (uninitialised : Nat → UInt8) {k budget : Nat}
    (hk : k < q.saved.length) (hbudget : ((q.saved.take k).map List.length).sum ≤ budget) :
    ∃ token after reopened disk,
      (file.loseFrom (encode (q.saved.take k)).length).read budget true =
        (.ok ⟨q.saved.take k, token⟩, true, after) ∧
      after.hasMore token = false ∧
      (after.remove token true).1 = .ok () ∧ (after.remove token true).2.size = 0 ∧
      EmerCircularFile.new after.disk after.maxSize false uninitialised .none =
        (.ok reopened, disk) ∧
      AnswersAsQueue uninitialised ⟨after, [token]⟩ ⟨⟨q.saved.take k, q.unsaved⟩, [k]⟩ ∧
      AnswersAsQueue uninitialised ⟨reopened, []⟩ ⟨⟨q.saved.take k, []⟩, []⟩ := by
  obtain ⟨contents', hread, hholds⟩ := h.read_loseFrom hk hbudget rfl
  have hsize := hholds.size_eq
  have hlt := hholds.maxSize_lt
  have hfits := hholds.fits
  have hsizeLt : (encode (q.saved.take k)).length < 2 ^ 64 := by
    rw [← hsize]
    omega
  have hsynced := describes_setSizeHead hmaxSize hsizeLt hhead
  -- the token of the elements returned is the size that has been recorded
  have hremoved := EmerCircularFile.remove_size
    ((file.loseFrom (encode (q.saved.take k)).length).setMetadata
      (encode (q.saved.take k)).length file.head true).2 hsizeLt
  have hrefines : Refines file.maxSize
      ⟨((file.loseFrom (encode (q.saved.take k)).length).setMetadata
        (encode (q.saved.take k)).length file.head true).2, [(encode (q.saved.take k)).length]⟩
      ⟨⟨q.saved.take k, q.unsaved⟩, [k]⟩ := by
    refine ⟨rfl, ⟨rfl, hsynced⟩, ⟨contents', hholds⟩, ?_, ?_⟩
    · rw [List.map_singleton, tokenOf, List.take_take, Nat.min_self]
    · intro n hn
      rw [List.mem_singleton.mp hn, List.length_take]
      omega
  obtain ⟨reopened, disk, hnew, hreopened⟩ := hrefines.reopen uninitialised
  obtain ⟨contents'', hreopenedHolds⟩ := hreopened.holds
  have hfresh := Refines.ofRemoval hreopened.maxSize_eq hreopened.synced hreopenedHolds
  exact ⟨_, _, reopened, disk, hread, decide_eq_false (Nat.lt_irrefl _), hremoved.1, hremoved.2,
    hnew, hrefines.answersAsQueue uninitialised, hfresh.answersAsQueue uninitialised⟩

/-- A queue of two elements in 24 bytes.  The length of the second one goes round the end. -/
def wrappedQueue : EmerCircularFile :=
  { disk := ⟨some [0, 0, 0, 0, 4, 5, 6, 7, 8, 3, 0, 0, 0, 0, 0, 0, 0, 1, 2, 3, 2, 0, 0, 0], .absent⟩
    metadataKeyFile := KeyFile.empty.setUint64 metadataGroupName maxSizeKey 24
    writeBuffer := [], maxSize := 24, size := 21, head := 9 }

theorem wrappedQueue_holds : Holds wrappedQueue
    [0, 0, 0, 0, 4, 5, 6, 7, 8, 3, 0, 0, 0, 0, 0, 0, 0, 1, 2, 3, 2, 0, 0, 0]
    ⟨[[1, 2, 3], [4, 5]], []⟩ where
  dataFile := rfl
  maxSize_lt := by decide
  size_eq := by decide
  writeBuffer_eq := rfl
  fits := by decide
  head_lt := by decide
  stored := ⟨by decide, by unfold RingHolds; decide, .inr rfl⟩
  nonempty := by decide

theorem zeroedTail_cut_off_wrappedQueue :
    ∃ token after,
      (wrappedQueue.loseFrom 11).read 3 true = (.ok ⟨[[1, 2, 3]], token⟩, true, after) ∧
      after.hasMore token = false := by
  obtain ⟨token, after, -, -, hread, hmore, -⟩ := zeroedTail_cut_off wrappedQueue_holds
    (KeyFile.getUint64_setUint64 _ _ _ (by decide)) (by decide) (fun _ => 0)
    (show 1 < 2 by decide) (show 3 ≤ 3 by decide)
  exact ⟨token, after, hread, hmore⟩

end EventRecorder
