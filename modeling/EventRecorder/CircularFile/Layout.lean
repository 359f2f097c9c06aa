import EventRecorder.CircularFile.Basic
import EventRecorder.Theory.Fifo

/-!
# What a circular file holds

`Holds self contents q` says that the data file and the write buffer hold the saved and the unsaved
elements of a queue.  Reading follows the ring across the end of the data file, which the code
notices by having reached the maximum size; saving writes behind the saved elements only.
-/

namespace EventRecorder

open Theory

/-! ## 1. Reading across the end of the file -/

/-- The bytes lie ahead of the stream.  They end in front of the end of the ring, or go round the
end of a file that is as long as the ring. -/
structure StreamHolds (M : Nat) (stream : FileInputStream) (bytes : Bytes) : Prop where
  position_le : stream.position ≤ M
  short : bytes.length ≤ M
  ring : RingHolds M stream.contents stream.position bytes
  reach : stream.position + bytes.length ≤ min M stream.contents.length ∨
    stream.contents.length = M

/-- Bytes that are stored lie ahead of a stream at their start. -/
theorem streamHolds_of_ringStored {M : Nat} {stream : FileInputStream} {bytes : Bytes}
    (h : RingStored M stream.position stream.contents bytes) (hposition : stream.position ≤ M)
    (hshort : bytes.length ≤ M) : StreamHolds M stream bytes := by
  have hphysical := h.physical
  refine ⟨hposition, hshort, h.ring, h.filled.imp (fun hroom => ?_) id⟩
  rwa [min_eq_right hphysical]

namespace EmerCircularFile

variable {self : EmerCircularFile} {stream : FileInputStream} {xs ys : Bytes}

/-- Bytes that end before the end of the file are read in one go. -/
theorem readBytes_within (h : StreamHolds self.maxSize stream (xs ++ ys))
    (hend : stream.position + xs.length ≤ stream.contents.length) :
    self.readBytes stream xs.length =
      .ok (xs, { stream with position := stream.position + xs.length }) := by
  have hreach := h.reach
  rw [List.length_append] at hreach
  have hxs : (stream.contents.drop stream.position).take xs.length = xs :=
    (ringHolds_append.mp h.ring).1.take_drop (by omega)
  simp only [readBytes, FileInputStream.readAll, hxs, continueReadingFromStart, if_true]

/-- Bytes that go past the end of a full file are read in two parts. -/
theorem readBytes_across (h : StreamHolds self.maxSize stream (xs ++ ys))
    (hend : stream.contents.length < stream.position + xs.length) :
    self.readBytes stream xs.length =
      .ok (xs, { stream with position := stream.position + xs.length - self.maxSize }) := by
  -- only a full file has contents that go round its end
  have hfull : stream.contents.length = self.maxSize := by
    have := h.reach
    rw [List.length_append] at this
    omega
  have hposition := h.position_le
  have hshort := h.short
  rw [List.length_append] at hshort
  set k := self.maxSize - stream.position with hk
  have hsplit : xs.take k ++ xs.drop k = xs := List.take_append_drop k xs
  have hlenTake : (xs.take k).length = k := by rw [List.length_take]; omega
  have hlenDrop : (xs.drop k).length = xs.length - k := List.length_drop
  have hring := (ringHolds_append.mp h.ring).1
  rw [← hsplit] at hring
  obtain ⟨hringEnd, hringStart⟩ := ringHolds_append.mp hring
  have hringStart : RingHolds self.maxSize stream.contents 0 (xs.drop k) := by
    refine (ringHolds_congr ?_).mp hringStart
    rw [hlenTake, show stream.position + k = self.maxSize by omega, Nat.mod_self, Nat.zero_mod]
  -- the first part is what is left up to the end of the file
  have hfirst : (stream.contents.drop stream.position).take xs.length = xs.take k := by
    have hread := hringEnd.take_drop (by omega)
    rw [hlenTake] at hread
    rw [← hread, List.take_of_length_le (by rw [List.length_drop]; omega),
      List.take_of_length_le (by rw [List.length_drop]; omega)]
  have hsecond : stream.contents.take (xs.length - k) = xs.drop k := by
    have hread := hringStart.take_drop (by omega)
    rwa [List.drop_zero, hlenDrop] at hread
  simp only [readBytes, FileInputStream.readAll, FileInputStream.seek, hfirst,
    continueReadingFromStart, hlenTake, List.drop_zero, hsecond, hlenDrop]
  -- fewer bytes came than asked for, the stream stands at the end, and the rest is complete
  rw [if_neg (by omega), if_neg (by omega), if_neg (by omega), hsplit]
  simp only [Nat.zero_add, Except.ok.injEq, Prod.mk.injEq, FileInputStream.mk.injEq, true_and]
  omega

theorem readBytes_of_streamHolds (h : StreamHolds self.maxSize stream (xs ++ ys)) :
    ∃ stream', self.readBytes stream xs.length = .ok (xs, stream') ∧
      StreamHolds self.maxSize stream' ys := by
  have hposition := h.position_le
  have hshort := h.short
  have hreach := h.reach
  have hring := (ringHolds_append.mp h.ring).2
  rw [List.length_append] at hshort hreach
  -- the bytes end in front of the physical end of the file, or go round it
  by_cases hend : stream.position + xs.length ≤ stream.contents.length
  · refine ⟨_, readBytes_within h hend, ?_, by omega, hring, hreach.imp (fun hroom => ?_) id⟩
    · show stream.position + xs.length ≤ self.maxSize
      omega
    · show stream.position + xs.length + ys.length ≤ min self.maxSize stream.contents.length
      omega
  · have hround : (stream.position + xs.length) % self.maxSize =
        (stream.position + xs.length - self.maxSize) % self.maxSize :=
      Nat.mod_eq_sub_mod (by omega)
    refine ⟨_, readBytes_across h (by omega), ?_, by omega, (ringHolds_congr hround).mp hring, ?_⟩
    · show stream.position + xs.length - self.maxSize ≤ self.maxSize
      omega
    · exact .inr (by show stream.contents.length = self.maxSize; omega)

theorem readElemSize_of_streamHolds {elem rest : Bytes} (hlen : elem.length < 2 ^ 64)
    (h : StreamHolds self.maxSize stream (toLittleEndian 8 elem.length ++ rest)) :
    ∃ stream', self.readElemSize stream = .ok (elem.length, stream') ∧
      StreamHolds self.maxSize stream' rest := by
  obtain ⟨stream', hread, hrest⟩ := readBytes_of_streamHolds h
  rw [length_toLittleEndian] at hread
  refine ⟨stream', ?_, hrest⟩
  rw [readElemSize, sizeofElemSize, hread]
  simp only [ofLittleEndian_toLittleEndian (show elem.length < 256 ^ 8 by omega)]

theorem appendElemToArray_of_streamHolds {elem rest : Bytes} (elemArray : List Bytes)
    (h : StreamHolds self.maxSize stream (elem ++ rest)) :
    ∃ stream', self.appendElemToArray stream elemArray elem.length =
        .ok (elemArray ++ [elem], stream') ∧ StreamHolds self.maxSize stream' rest := by
  obtain ⟨stream', hread, hrest⟩ := readBytes_of_streamHolds h
  exact ⟨stream', by rw [appendElemToArray, hread], hrest⟩

/-- The loop reads the longest prefix of the elements ahead that the rest of the budget covers.
Behind them may be invalid data, which starts with a length of zero. -/
theorem readElems_of_streamHolds {budget : Nat} {rest : List Bytes} {tail : Bytes}
    (hM : self.maxSize < 2 ^ 64) (hnonempty : ∀ elem ∈ rest, elem ≠ [])
    (htail : tail = [] ∨ ∃ more, tail = toLittleEndian 8 0 ++ more) {fuel : Nat}
    (hfuel : (encode rest ++ tail).length ≤ fuel) {elemArray : List Bytes}
    {currDataBytes currDiskBytes : Nat} (hdata : currDataBytes ≤ budget)
    (hle : currDataBytes ≤ currDiskBytes)
    (hsize : currDiskBytes + (encode rest ++ tail).length = self.size)
    (hsizeM : self.size ≤ self.maxSize)
    (h : StreamHolds self.maxSize stream (encode rest ++ tail)) :
    self.readElems budget fuel stream elemArray currDataBytes currDiskBytes =
      .ok ⟨elemArray ++ takeWithin List.length (budget - currDataBytes) rest,
        currDiskBytes + (encode (takeWithin List.length (budget - currDataBytes) rest)).length,
        decide (takeWithin List.length (budget - currDataBytes) rest = rest ∧ tail ≠ [])⟩ := by
  -- along the elements ahead; the fuel is only ever compared with their bytes
  induction rest generalizing fuel stream elemArray currDataBytes currDiskBytes with
  | nil =>
    rw [encode_nil, List.nil_append] at hsize hfuel h
    rw [takeWithin, List.append_nil, encode_nil, List.length_nil, Nat.add_zero]
    cases htail with
    | inl hempty =>
      rw [hempty, List.length_nil] at hsize
      have hend : ¬ currDiskBytes < self.size := by omega
      cases fuel <;> simp [readElems, hend, hempty]
    | inr hinvalid =>
      obtain ⟨more, rfl⟩ := hinvalid
      rw [List.length_append, length_toLittleEndian] at hsize hfuel
      obtain ⟨fuel, rfl⟩ : ∃ n, fuel = n + 1 := ⟨fuel - 1, by omega⟩
      obtain ⟨stream₁, hread₁, -⟩ :=
        readElemSize_of_streamHolds (show ([] : Bytes).length < 2 ^ 64 by decide) h
      rw [readElems, if_pos (by omega), hread₁]
      simp [toLittleEndian]
  | cons elem rest ih =>
    have helem : elem ≠ [] := hnonempty elem List.mem_cons_self
    have hpos : 0 < elem.length := List.length_pos_iff.mpr helem
    rw [encode_cons, List.append_assoc, List.append_assoc] at h hsize hfuel
    simp only [List.length_append, length_toLittleEndian] at hsize hfuel
    obtain ⟨fuel, rfl⟩ : ∃ n, fuel = n + 1 := ⟨fuel - 1, by omega⟩
    obtain ⟨stream₁, hread₁, h₁⟩ := readElemSize_of_streamHolds (by omega) h
    obtain ⟨stream₂, hread₂, h₂⟩ := appendElemToArray_of_streamHolds elemArray h₁
    rw [readElems, if_pos (by omega), hread₁]
    simp only [if_neg (show ¬ elem.length = 0 by omega)]
    rw [Nat.mod_eq_of_lt (show currDataBytes + elem.length < 2 ^ 64 by omega)]
    -- the next element is within what is left of the budget, or it ends the loop unread
    by_cases hfits : elem.length ≤ budget - currDataBytes
    · rw [if_neg (by omega), hread₂]
      simp only [sizeofElemSize]
      rw [Nat.mod_eq_of_lt (show currDiskBytes + 8 + elem.length < 2 ^ 64 by omega),
        ih (fun e he => hnonempty e (List.mem_cons_of_mem elem he))
          (by rw [List.length_append]; omega) (by omega) (by omega)
          (by rw [List.length_append]; omega) h₂,
        takeWithin, if_pos hfits, encode_cons, Nat.sub_sub]
      simp only [List.length_append, length_toLittleEndian, List.append_assoc,
        List.singleton_append, Except.ok.injEq, ElemsRead.mk.injEq, true_and, List.cons.injEq,
        and_true]
      omega
    · have hstopped : ¬ ([] = elem :: rest ∧ tail ≠ []) := fun hall => by cases hall.1
      rw [if_pos (by omega), takeWithin, if_neg hfits, List.append_nil, encode_nil,
        List.length_nil, Nat.add_zero, decide_eq_false hstopped]

end EmerCircularFile

/-! ## 2. The queue that an object and its data file hold -/

/-- The data file has these bytes between the head and the tail. -/
structure HoldsBytes (file : EmerCircularFile) (contents stored : Bytes) : Prop where
  dataFile : file.disk.dataFile = some contents
  maxSize_lt : file.maxSize < 2 ^ 64
  size_eq : file.size = stored.length
  size_le : file.size ≤ file.maxSize
  head_lt : file.head < file.maxSize
  stored : RingStored file.maxSize file.head contents stored

/-- A read answers the longest prefix of the elements ahead within the budget.  If it gets to
invalid data behind them, it cuts that off. -/
theorem EmerCircularFile.read_of_streamHolds {self : EmerCircularFile} {contents tail : Bytes}
    {elems : List Bytes} (hdata : self.disk.dataFile = some contents)
    (hmaxSize : self.maxSize < 2 ^ 64) (hsize : self.size = (encode elems ++ tail).length)
    (hsizeM : self.size ≤ self.maxSize)
    (h : self.size ≠ 0 → StreamHolds self.maxSize ⟨contents, self.head⟩ (encode elems ++ tail))
    (hnonempty : ∀ elem ∈ elems, elem ≠ [])
    (htail : tail = [] ∨ ∃ more, tail = toLittleEndian 8 0 ++ more) (budget : Nat) (saved : Bool)
    {taken : List Bytes} (htaken : taken = takeWithin List.length budget elems) :
    self.read budget saved =
      (.ok ⟨taken, (encode taken).length⟩, decide (taken = elems ∧ tail ≠ []),
        if taken = elems ∧ tail ≠ [] then
          (self.setMetadata (encode taken).length self.head saved).2
        else self) := by
  rw [EmerCircularFile.read]
  by_cases hzero : self.size = 0
  · have hnone : encode elems ++ tail = [] := List.length_eq_zero_iff.mp (by omega)
    obtain ⟨hnoElems, hnoTail⟩ := List.append_eq_nil_iff.mp hnone
    have helems : elems = [] := length_encode_eq_zero.mp (by rw [hnoElems]; rfl)
    subst helems hnoTail htaken
    rw [if_pos hzero]
    simp [takeWithin]
  · have hloop : self.readElems budget self.size ⟨contents, self.head⟩ [] 0 0 =
        .ok ⟨[] ++ takeWithin List.length (budget - 0) elems,
          0 + (encode (takeWithin List.length (budget - 0) elems)).length,
          decide (takeWithin List.length (budget - 0) elems = elems ∧ tail ≠ [])⟩ :=
      EmerCircularFile.readElems_of_streamHolds hmaxSize hnonempty htail (by omega)
        (Nat.zero_le budget) (le_refl 0) (by omega) hsizeM (h hzero)
    rw [Nat.sub_zero, List.nil_append, Nat.zero_add, ← htaken] at hloop
    rw [if_neg hzero, hdata]
    simp only
    rw [hloop]
    by_cases hinvalid : taken = elems ∧ tail ≠ []
    · simp only [hinvalid, ne_eq, not_false_eq_true, and_self, decide_true, if_true]
    · simp only [hinvalid, decide_false, Bool.false_eq_true, if_false]

theorem HoldsBytes.read_eq {self : EmerCircularFile} {contents tail : Bytes} {elems : List Bytes}
    (h : HoldsBytes self contents (encode elems ++ tail)) (hnonempty : ∀ elem ∈ elems, elem ≠ [])
    (htail : tail = [] ∨ ∃ more, tail = toLittleEndian 8 0 ++ more) (budget : Nat) (saved : Bool)
    {taken : List Bytes} (htaken : taken = takeWithin List.length budget elems) :
    self.read budget saved =
      (.ok ⟨taken, (encode taken).length⟩, decide (taken = elems ∧ tail ≠ []),
        if taken = elems ∧ tail ≠ [] then
          (self.setMetadata (encode taken).length self.head saved).2
        else self) := by
  have hshort := h.size_le
  rw [h.size_eq] at hshort
  exact EmerCircularFile.read_of_streamHolds h.dataFile h.maxSize_lt h.size_eq h.size_le
    (fun _ => streamHolds_of_ringStored h.stored h.head_lt.le hshort) hnonempty htail budget saved
    htaken

/-- The same for framed elements, an empty one of which is invalid data. -/
theorem HoldsBytes.read_frames {self : EmerCircularFile} {contents : Bytes}
    {elems front taken : List Bytes} (h : HoldsBytes self contents (encode elems)) (budget : Nat)
    (saved : Bool) (hfront : front = elems.takeWhile (· ≠ []))
    (htaken : taken = takeWithin List.length budget front) :
    self.read budget saved =
      (.ok ⟨taken, (encode taken).length⟩, decide (taken = front ∧ front ≠ elems),
        if taken = front ∧ front ≠ elems then
          (self.setMetadata (encode taken).length self.head saved).2
        else self) := by
  obtain ⟨tail, hsplit, htail, hnone⟩ := encode_takeWhile elems
  rw [hsplit, ← hfront] at h
  rw [← hfront] at hnone
  have hnonempty : ∀ elem ∈ front, elem ≠ [] := by
    intro elem helem
    rw [hfront] at helem
    exact ne_nil_of_mem_takeWhile helem
  rw [h.read_eq hnonempty htail budget saved htaken]
  simp only [ne_eq, hnone]

structure Holds (file : EmerCircularFile) (contents : Bytes) (q : Fifo Bytes) : Prop where
  dataFile : file.disk.dataFile = some contents
  maxSize_lt : file.maxSize < 2 ^ 64
  size_eq : file.size = (encode q.saved).length
  writeBuffer_eq : file.writeBuffer = encode q.unsaved
  fits : file.size + file.writeBuffer.length ≤ file.maxSize
  head_lt : file.head < file.maxSize
  stored : RingStored file.maxSize file.head contents (encode q.saved)
  nonempty : ∀ elem ∈ q.saved ++ q.unsaved, elem ≠ []

/-- An empty file whose data file is no longer than the maximum size holds the empty queue, whatever
the data file contains. -/
theorem holds_empty {contents : Bytes} {metadataFile : KeyFileOnDisk} {keyFile : KeyFile}
    {maxSize : Nat} (hpos : 1 ≤ maxSize) (hmaxSize : maxSize < 2 ^ 64)
    (hcontents : contents.length ≤ maxSize) :
    Holds ⟨⟨some contents, metadataFile⟩, keyFile, [], maxSize, 0, 0⟩ contents Fifo.empty where
  dataFile := rfl
  maxSize_lt := hmaxSize
  size_eq := rfl
  writeBuffer_eq := rfl
  fits := Nat.zero_le _
  head_lt := hpos
  stored := ⟨hcontents, ringHolds_nil _ _ _, .inl (Nat.zero_le _)⟩
  nonempty := fun elem he => by simp [Fifo.empty] at he

namespace Holds

variable {self : EmerCircularFile} {contents : Bytes} {q : Fifo Bytes}

theorem nonempty_saved (h : Holds self contents q) : ∀ elem ∈ q.saved, elem ≠ [] :=
  fun elem he => h.nonempty elem (List.mem_append_left _ he)

/-- The capacity in use is what the code adds up. -/
theorem occupied_eq (h : Holds self contents q) :
    q.occupied frameLength = self.size + self.writeBuffer.length := by
  rw [Fifo.occupied, h.size_eq, h.writeBuffer_eq, length_encode, length_encode]

theorem holdsBytes (h : Holds self contents q) : HoldsBytes self contents (encode q.saved) :=
  ⟨h.dataFile, h.maxSize_lt, h.size_eq, le_of_add_le_left h.fits, h.head_lt, h.stored⟩

theorem ofBytes (h : HoldsBytes self contents (encode q.saved))
    (hbuffer : self.writeBuffer = encode q.unsaved)
    (hfits : self.size + self.writeBuffer.length ≤ self.maxSize)
    (hnonempty : ∀ elem ∈ q.saved ++ q.unsaved, elem ≠ []) : Holds self contents q :=
  ⟨h.dataFile, h.maxSize_lt, h.size_eq, hbuffer, hfits, h.head_lt, h.stored, hnonempty⟩

/-- A read answers the longest prefix of the saved elements within the budget and changes
nothing. -/
theorem read_eq (h : Holds self contents q) (budget : Nat) (saved : Bool) :
    self.read budget saved =
      (.ok ⟨q.read List.length budget, (encode (q.read List.length budget)).length⟩, false,
        self) := by
  have hbytes := h.holdsBytes
  rw [← List.append_nil (encode q.saved)] at hbytes
  rw [hbytes.read_eq h.nonempty_saved (.inl rfl) budget saved rfl]
  simp [Fifo.read]

end Holds

/-! ## 3. Appending -/

/-- Data whose length is a `guint` is appended in full. -/
theorem gByteArrayAppend_eq (array : Bytes) {data : Bytes} (hlen : data.length < 2 ^ 32) :
    gByteArrayAppend array data = array ++ data := by
  rw [gByteArrayAppend, Nat.mod_eq_of_lt hlen, List.take_length]

/-- Where no sum wraps, an element is appended as one frame or refused. -/
theorem EmerCircularFile.append_of_sumFits {self : EmerCircularFile} {elem : Bytes}
    (hsum : self.size + self.writeBuffer.length + (8 + elem.length) < 2 ^ 64)
    (hlen : self.size + self.writeBuffer.length + (8 + elem.length) ≤ self.maxSize →
      elem.length < 2 ^ 32) :
    self.append elem =
      if self.size + self.writeBuffer.length + (8 + elem.length) ≤ self.maxSize then
        (true, { self with writeBuffer := self.writeBuffer ++ frame elem })
      else (false, self) := by
  rw [append, sizeofElemSize, Nat.mod_eq_of_lt (show 8 + elem.length < 2 ^ 64 by omega),
    Nat.mod_eq_of_lt hsum]
  by_cases hfits : self.size + self.writeBuffer.length + (8 + elem.length) ≤ self.maxSize
  · rw [if_neg (by omega), if_pos hfits, gByteArrayAppend_eq _ (hlen hfits),
      gByteArrayAppend_eq _ (by rw [length_toLittleEndian]; decide), List.append_assoc, frame]
  · rw [if_pos (by omega), if_neg hfits]

theorem Holds.append_spec {self : EmerCircularFile} {contents : Bytes} {q : Fifo Bytes}
    (h : Holds self contents q) {elem : Bytes} (helem : elem ≠ [])
    (hsum : self.size + self.writeBuffer.length + (8 + elem.length) < 2 ^ 64)
    (hlen : self.size + self.writeBuffer.length + (8 + elem.length) ≤ self.maxSize →
      elem.length < 2 ^ 32) :
    (self.append elem).1 = (q.append frameLength self.maxSize elem).1 ∧
      Holds (self.append elem).2 contents (q.append frameLength self.maxSize elem).2 := by
  rw [EmerCircularFile.append_of_sumFits hsum hlen, Fifo.append, h.occupied_eq, frameLength]
  -- the test of the code is the bound of the queue, since nothing wraps
  by_cases hfits : self.size + self.writeBuffer.length + (8 + elem.length) ≤ self.maxSize
  · rw [if_pos hfits, if_pos hfits]
    have hbuffer : self.writeBuffer ++ frame elem = encode (q.unsaved ++ [elem]) := by
      rw [h.writeBuffer_eq, encode_append, encode_singleton]
    refine ⟨rfl, { h with writeBuffer_eq := hbuffer, fits := ?_, nonempty := ?_ }⟩
    · show self.size + (self.writeBuffer ++ frame elem).length ≤ _
      rw [List.length_append, length_frame, frameLength, ← Nat.add_assoc]
      exact hfits
    · intro e he
      rw [← List.append_assoc, List.mem_append, List.mem_singleton] at he
      rcases he with hold | rfl
      · exact h.nonempty e hold
      · exact helem
  · rw [if_neg hfits, if_neg hfits]
    exact ⟨rfl, h⟩

/-! ## 4. Saving, with or without a failure on the way -/

namespace HoldsBytes

variable {self : EmerCircularFile} {contents stored : Bytes}

/-- Putting other contents behind the object that store the same bytes. -/
theorem withContents (h : HoldsBytes self contents stored) {contents' : Bytes}
    (hstored : RingStored self.maxSize self.head contents' stored) :
    HoldsBytes { self with disk := { self.disk with dataFile := some contents' } } contents'
      stored :=
  { h with dataFile := rfl, stored := hstored }

theorem tail_lt (h : HoldsBytes self contents stored) : self.tail < self.maxSize :=
  Nat.mod_lt _ (by have := h.head_lt; omega)

theorem tail_eq (h : HoldsBytes self contents stored) (hoffset : self.head + self.size < 2 ^ 64) :
    self.tail = (self.head + stored.length) % self.maxSize := by
  rw [EmerCircularFile.tail, Nat.mod_eq_of_lt hoffset, h.size_eq]

/-- Whatever part of the write at the start takes place, it keeps the bytes stored. -/
theorem writeAtStart_stored (h : HoldsBytes self contents stored)
    (hfits : self.size + self.writeBuffer.length ≤ self.maxSize)
    (hoffset : self.head + self.size < 2 ^ 64) {contents' : Bytes}
    (hstored : RingStored self.maxSize self.head contents' stored) (fault : SaveFault) :
    RingStored self.maxSize self.head (self.writeAtStart contents' fault).2 stored := by
  have hsize := h.size_eq
  have htail := h.tail_lt
  -- a write that fails half-way has written a prefix, which is no longer than the whole
  have hpart : ∀ ys : Bytes, ys.length ≤ self.writeBuffer.length - self.bytesTail →
      RingStored self.maxSize self.head (writeAt 0 contents' 0 ys) stored := by
    intro ys hys
    by_cases hnil : ys = []
    · rwa [hnil, writeAt_nil]
    have hpos : 0 < ys.length := List.length_pos_iff.mpr hnil
    rw [EmerCircularFile.bytesTail] at hys
    refine hstored.writeAt_free 0 (by omega) (by omega) fun j hj => ?_
    refine free_of_start (by omega) (n := ys.length) ?_ hj
    rw [← h.tail_eq hoffset]
    omega
  have hdrop : (self.writeBuffer.drop self.bytesTail).length =
      self.writeBuffer.length - self.bytesTail := List.length_drop
  unfold EmerCircularFile.writeAtStart
  simp only
  split
  · split
    · exact hstored
    · exact hpart _ (by rw [List.length_take]; omega)
    · exact hpart _ hdrop.le
  · exact hstored

/-- The same for the write at the tail. -/
theorem writeAtTail_stored (h : HoldsBytes self contents stored)
    (hfits : self.size + self.writeBuffer.length ≤ self.maxSize)
    (hoffset : self.head + self.size < 2 ^ 64) {contents' : Bytes}
    (hstored : RingStored self.maxSize self.head contents' stored) (fault : SaveFault) :
    RingStored self.maxSize self.head (self.writeAtTail contents' fault).2 stored := by
  have hsize := h.size_eq
  have htail := h.tail_lt
  have hpart : ∀ ys : Bytes, ys.length ≤ self.bytesTail →
      RingStored self.maxSize self.head (writeAt 0 contents' self.tail ys) stored := by
    intro ys hys
    rw [EmerCircularFile.bytesTail] at hys
    refine hstored.writeAt_free 0 (by omega) (by omega) fun j hj => ?_
    rw [h.tail_eq hoffset] at hys htail ⊢
    exact free_of_tail (n := ys.length) (by omega) (by omega) hj
  have htake : (self.writeBuffer.take self.bytesTail).length ≤ self.bytesTail :=
    List.length_take_le _ _
  unfold EmerCircularFile.writeAtTail
  simp only
  split
  · exact hstored
  · exact hpart _ (by rw [List.length_take]; omega)
  · exact hpart _ htake

theorem writeData_stored (h : HoldsBytes self contents stored)
    (hfits : self.size + self.writeBuffer.length ≤ self.maxSize)
    (hoffset : self.head + self.size < 2 ^ 64) (fault : SaveFault) :
    RingStored self.maxSize self.head (self.writeData contents fault).2 stored := by
  have hstart := h.writeAtStart_stored hfits hoffset h.stored fault
  unfold EmerCircularFile.writeData
  split
  · rename_i contents' heq
    rwa [heq] at hstart
  · rename_i contents' heq
    rw [heq] at hstart
    exact h.writeAtTail_stored hfits hoffset hstart fault

/-- When both writes succeed, the file stores the write buffer behind the bytes stored before. -/
theorem writeData_stored_behind (h : HoldsBytes self contents stored)
    (hfits : self.size + self.writeBuffer.length ≤ self.maxSize)
    (hoffset : self.head + self.size < 2 ^ 64) {fault : SaveFault} {contents' : Bytes}
    (hwritten : self.writeData contents fault = (true, contents')) :
    RingStored self.maxSize self.head contents' (stored ++ self.writeBuffer) := by
  have hsize := h.size_eq
  have hroom : stored.length + self.writeBuffer.length ≤ self.maxSize := by omega
  have hbehind := h.stored.write_behind 0 h.head_lt hroom
  rw [← h.tail_eq hoffset] at hbehind
  -- the first write is left out when nothing goes round to the start
  have hstart : ∀ contents₁, self.writeAtStart contents fault = (true, contents₁) →
      contents₁ = writeAt 0 contents 0 (self.writeBuffer.drop self.bytesTail) := by
    intro contents₁ heq
    unfold EmerCircularFile.writeAtStart at heq
    simp only at heq
    split at heq
    · split at heq <;> simp_all
    · rw [List.drop_of_length_le (by omega), writeAt_nil]
      exact (Prod.mk.inj heq).2.symm
  have htail : ∀ contents₁, self.writeAtTail contents₁ fault = (true, contents') →
      contents' = writeAt 0 contents₁ self.tail (self.writeBuffer.take self.bytesTail) := by
    intro contents₁ heq
    unfold EmerCircularFile.writeAtTail at heq
    simp only at heq
    split at heq <;> simp_all
  unfold EmerCircularFile.writeData at hwritten
  split at hwritten
  · simp at hwritten
  · rename_i contents₁ heq
    rw [htail contents₁ hwritten, hstart contents₁ heq]
    exact hbehind

end HoldsBytes

end EventRecorder
