import EventRecorder.CircularFile.FailedMetadata
import EventRecorder.CircularFile.Refinement

/-!
# Opening at another maximum size

Resizing reads as much of the queue as the new maximum size takes, following the ring at the old
one, and cuts it behind the last element that is whole.  What is kept is the longest prefix that
fits, moved to the start of the data file.
-/

namespace EventRecorder

open Theory

namespace EmerCircularFile

variable {self : EmerCircularFile}

/-! ## 1. Reading the ring at its old size -/

/-- The bytes read are the first ones of the ring, whichever part of it goes round the end. -/
theorem readDiskBytes_of_ringHolds {contents xs buffer : Bytes} {numBytes prevMaxSize : Nat}
    (hdata : self.disk.dataFile = some contents)
    (hring : RingHolds prevMaxSize contents self.head xs) (hhead : self.head ≤ prevMaxSize)
    (hxs : xs.length ≤ prevMaxSize) (hnumBytes : numBytes ≤ xs.length)
    (hbuffer : buffer.length = numBytes) :
    self.readDiskBytes buffer numBytes prevMaxSize true = .ok (xs.take numBytes) := by
  unfold readDiskBytes
  by_cases hzero : numBytes = 0
  · rw [if_pos hzero]
    rw [hzero] at hbuffer
    rw [hzero, List.take_zero, List.eq_nil_of_length_eq_zero hbuffer]
  rw [if_neg hzero]
  simp only [hdata, FileInputStream.readAll, List.drop_zero]
  set ys := xs.take numBytes with hys
  have hlen : ys.length = numBytes := by rw [hys, List.length_take]; omega
  have hfront : RingHolds prevMaxSize contents self.head ys := by
    rw [← List.take_append_drop numBytes xs] at hring
    exact (ringHolds_append.mp hring).1
  obtain ⟨hfromHead, hfromStart⟩ := hfront.unroll hhead (by omega)
  rw [hlen] at hfromHead hfromStart
  set n := min numBytes (prevMaxSize - self.head) with hn
  have hlenHead : (ys.take n).length = n := by rw [List.length_take]; omega
  have hlenBuffer : (buffer.take n).length = n := by rw [List.length_take]; omega
  rw [hfromHead, hfromStart]
  -- the part from the start ends with the buffer, and the part from the head is in front of it
  have hlenDrop : (ys.drop n).length = numBytes - n := by rw [List.length_drop, hlen]
  rw [@writeAt_to_end _ 0 buffer n (ys.drop n) (by omega), writeAt_zero, hlenHead,
    List.drop_left' hlenBuffer, List.take_append_drop]

/-! ## 2. Cutting behind the last whole element -/

theorem elemSizeAt_of_frame {buffer elem rest : Bytes} {numBytes currPos : Nat}
    (hbuffer : buffer.drop currPos =
      (toLittleEndian 8 elem.length ++ rest).take (numBytes - currPos))
    (hroom : currPos + 8 ≤ numBytes) (hlen : elem.length < 2 ^ 64) :
    elemSizeAt buffer currPos = elem.length := by
  have hlength : (buffer.drop currPos).take 8 = toLittleEndian 8 elem.length := by
    rw [hbuffer, List.take_take, Nat.min_eq_left (by omega)]
    exact List.take_left' (length_toLittleEndian 8 elem.length)
  rw [elemSizeAt, sizeofElemSize, hlength]
  exact ofLittleEndian_toLittleEndian (show elem.length < 256 ^ 8 by omega)

/-- The loop goes over the elements that are whole: from each to the next, and no further than to
the first one that is cut off, in its length or behind it. -/
theorem trimmedSizeFrom_encode {buffer : Bytes} {rest : List Bytes}
    (hnonempty : ∀ elem ∈ rest, elem ≠ []) {numBytes fuel currPos : Nat}
    (hpos : currPos ≤ numBytes) (hfuel : numBytes - currPos < fuel)
    (hwhole : numBytes - currPos ≤ (encode rest).length)
    (hsum : currPos + (encode rest).length < 2 ^ 64)
    (hbuffer : buffer.drop currPos = (encode rest).take (numBytes - currPos)) :
    trimmedSizeFrom buffer numBytes fuel currPos =
      some (currPos + (encode (takeWithin frameLength (numBytes - currPos) rest)).length) := by
  -- along the elements from the current position on
  induction rest generalizing fuel currPos with
  | nil =>
    obtain ⟨fuel, rfl⟩ : ∃ n, fuel = n + 1 := ⟨fuel - 1, by omega⟩
    rw [encode_nil, List.length_nil] at hwhole
    rw [trimmedSizeFrom, sizeofElemSize, if_neg (by omega)]
    rfl
  | cons elem rest ih =>
    obtain ⟨fuel, rfl⟩ : ∃ n, fuel = n + 1 := ⟨fuel - 1, by omega⟩
    have hlength : 0 < elem.length :=
      List.length_pos_iff.mpr (hnonempty elem List.mem_cons_self)
    have hencode : (encode (elem :: rest)).length = 8 + elem.length + (encode rest).length := by
      rw [encode_cons, List.length_append, List.length_append, length_toLittleEndian, Nat.add_assoc]
    rw [hencode] at hwhole hsum
    rw [trimmedSizeFrom, takeWithin, sizeofElemSize, frameLength]
    by_cases hroom : currPos + 8 < numBytes
    · have hframe := hbuffer
      rw [encode_cons] at hframe
      have helemSize := elemSizeAt_of_frame hframe hroom.le (by omega)
      rw [if_pos hroom]
      simp only
      rw [helemSize, Nat.mod_eq_of_lt (show currPos + 8 + elem.length < 2 ^ 64 by omega)]
      by_cases hfits : currPos + 8 + elem.length ≤ numBytes
      · have hrest : buffer.drop (currPos + 8 + elem.length) =
            (encode rest).take (numBytes - (currPos + 8 + elem.length)) := by
          have hskip : (encode (elem :: rest)).drop (8 + elem.length) = encode rest := by
            rw [encode_cons, ← List.append_assoc]
            exact List.drop_left' (by rw [List.length_append, length_toLittleEndian])
          rw [Nat.add_assoc, ← List.drop_drop, hbuffer, List.drop_take, hskip, Nat.sub_sub]
        rw [if_neg (by omega), if_pos (by omega),
          ih (fun e he => hnonempty e (List.mem_cons_of_mem elem he)) hfits (by omega) (by omega)
            (by omega) hrest]
        rw [show numBytes - currPos - (8 + elem.length) = numBytes - (currPos + 8 + elem.length) by
          omega, encode_cons, List.length_append, List.length_append, length_toLittleEndian]
        congr 1
        omega
      · rw [if_pos (by omega), if_neg (by omega), encode_nil, List.length_nil, Nat.add_zero]
    -- no element fits in eight bytes
    · rw [if_neg hroom, if_neg (by omega), encode_nil, List.length_nil, Nat.add_zero]

/-- What is kept of the bytes that were read. -/
theorem trimmed_encode {saved : List Bytes} (hnonempty : ∀ elem ∈ saved, elem ≠ [])
    {numBytes : Nat} (hwhole : numBytes ≤ (encode saved).length)
    (hlt : (encode saved).length < 2 ^ 64) :
    ∃ newSize, getTrimmedSize ((encode saved).take numBytes) numBytes = some newSize ∧
      ((encode saved).take numBytes).take newSize =
        encode (takeWithin frameLength numBytes saved) := by
  refine ⟨(encode (takeWithin frameLength numBytes saved)).length, ?_, ?_⟩
  · rw [getTrimmedSize, trimmedSizeFrom_encode hnonempty (Nat.zero_le _) (by omega) (by omega)
      (by omega) (by rw [List.drop_zero, Nat.sub_zero]), Nat.sub_zero, Nat.zero_add]
  · have hbudget := sum_takeWithin_le frameLength numBytes saved
    rw [← length_encode] at hbudget
    obtain ⟨dropped, hsplit⟩ := takeWithin_isPrefix frameLength numBytes saved
    have hencode : encode saved = encode (takeWithin frameLength numBytes saved) ++
        encode dropped := by
      rw [← encode_append, hsplit]
    rw [List.take_take, Nat.min_eq_left hbudget, hencode]
    exact List.take_left

/-! ## 3. Opening -/

theorem overwrite_succeeding (self : EmerCircularFile) (buffer : Bytes) (prevMaxSize : Nat) :
    (self.overwrite buffer prevMaxSize .none).1 = .ok () := by
  simp [overwrite, setMetadata, addToSize, saveMetadataFile]

/-- The object that is resized once its metadata has passed the checks. -/
def parsedObject (dataFile : Bytes) (keyFile : KeyFile) (maxSize size head : Nat) :
    EmerCircularFile :=
  ⟨⟨some dataFile, .parsed keyFile⟩, keyFile, [], maxSize, size, head⟩

theorem new_of_accepted {dataFile : Option Bytes} {keyFile : KeyFile} (maxSize : Nat)
    (uninitialised : Nat → UInt8) (hgroup : keyFile.hasGroup metadataGroupName = true)
    {prevMaxSize size head : Nat} (hparse : parseMetadata keyFile = .ok (prevMaxSize, size, head))
    {result : Except GError Unit} {self : EmerCircularFile}
    (hresize : (parsedObject (dataFile.getD []) keyFile maxSize size head).resize prevMaxSize
      uninitialised .none = (result, self)) :
    new ⟨dataFile, .parsed keyFile⟩ maxSize false uninitialised .none =
      (result.map fun _ => self, self.disk) := by
  rw [parsedObject] at hresize
  simp only [new, initableInit, loadMetadata, KeyFileOnDisk.load, hgroup, hparse, reduceCtorEq,
    if_false, Bool.not_true, Bool.false_eq_true, hresize]
  cases result <;> rfl

end EmerCircularFile

/-- The files of a circular file of some capacity: metadata that describes a ring, and the ring with
the saved elements.  `bounded` says that the data file is known to be within the maximum size. -/
structure StoredOnDisk (bounded : Prop) (disk : CircularFileOnDisk) (maxSize : Nat)
    (saved : List Bytes) (keyFile : KeyFile) (head : Nat) (contents : Bytes) : Prop where
  dataFile : disk.dataFile = some contents
  metadataFile : disk.metadataFile = .parsed keyFile
  describes : Describes keyFile maxSize (encode saved).length head
  maxSize_lt : maxSize < 2 ^ 64
  fits : (encode saved).length ≤ maxSize
  head_lt : head < maxSize
  kept : RingKept bounded maxSize head contents (encode saved)
  nonempty : ∀ elem ∈ saved, elem ≠ []

/-- An object of the given maximum size, its files, and the queue that they hold. -/
structure Keeps (bounded : Prop) (file : EmerCircularFile) (contents : Bytes) (maxSize : Nat)
    (q : Fifo Bytes) : Prop where
  synced : file.Synced
  dataFile : file.disk.dataFile = some contents
  maxSize_eq : file.maxSize = maxSize
  maxSize_lt : maxSize < 2 ^ 64
  size_eq : file.size = (encode q.saved).length
  writeBuffer_eq : file.writeBuffer = encode q.unsaved
  fits : file.size + file.writeBuffer.length ≤ maxSize
  head_lt : file.head < maxSize
  kept : RingKept bounded maxSize file.head contents (encode q.saved)
  nonempty : ∀ elem ∈ q.saved ++ q.unsaved, elem ≠ []

namespace Keeps

variable {bounded : Prop} {file : EmerCircularFile} {contents : Bytes} {maxSize : Nat}
  {q : Fifo Bytes}

theorem refines (h : Keeps bounded file contents maxSize q) (hbounded : bounded) :
    Refines maxSize ⟨file, []⟩ ⟨q, []⟩ := by
  have hmaxSize := h.maxSize_eq
  refine ⟨hmaxSize, h.synced, ⟨contents, h.dataFile, ?_, h.size_eq, h.writeBuffer_eq, ?_, ?_, ?_,
    h.nonempty⟩, rfl, by simp⟩ <;> rw [hmaxSize]
  · exact h.maxSize_lt
  · exact h.fits
  · exact h.head_lt
  · exact h.kept.stored hbounded

/-- What an object leaves when it goes. -/
theorem storedOnDisk (h : Keeps bounded file contents maxSize q) :
    StoredOnDisk bounded file.disk maxSize q.saved file.metadataKeyFile file.head contents := by
  have hdescribes := h.synced.describes
  have hfits := h.fits
  rw [h.maxSize_eq, h.size_eq] at hdescribes
  rw [h.size_eq] at hfits
  exact ⟨h.dataFile, h.synced.onDisk, hdescribes, h.maxSize_lt, by omega, h.head_lt, h.kept,
    fun elem he => h.nonempty elem (List.mem_append_left _ he)⟩

end Keeps

theorem Refines.keeps {maxSize : Nat} {client : CircularFileClient} {spec : QueueClient}
    (h : Refines maxSize client spec) :
    ∃ contents, Keeps True client.file contents maxSize spec.queue := by
  obtain ⟨contents, hholds⟩ := h.holds
  have hmaxSize := hholds.maxSize_lt
  have hhead := hholds.head_lt
  have hstored := hholds.stored
  have hfits := hholds.fits
  rw [h.maxSize_eq] at hmaxSize hhead hstored hfits
  exact ⟨contents, h.synced, hholds.dataFile, h.maxSize_eq, hmaxSize, hholds.size_eq,
    hholds.writeBuffer_eq, hfits, hhead, ⟨hstored.ring, fun _ => hstored⟩, hholds.nonempty⟩

namespace StoredOnDisk

variable {bounded : Prop} {disk : CircularFileOnDisk} {maxSize newMaxSize head : Nat}
  {saved : List Bytes} {keyFile : KeyFile} {contents : Bytes}

theorem parseMetadata_eq (h : StoredOnDisk bounded disk maxSize saved keyFile head contents) :
    EmerCircularFile.parseMetadata keyFile = .ok (maxSize, (encode saved).length, head) :=
  parseMetadata_of_describes h.describes h.fits h.head_lt

/-- The bytes that `resize` reads and keeps. -/
theorem readDiskBytes_eq (h : StoredOnDisk bounded disk maxSize saved keyFile head contents)
    (newMaxSize : Nat) {buffer : Bytes}
    (hbuffer : buffer.length = min (encode saved).length newMaxSize) :
    (EmerCircularFile.parsedObject contents keyFile newMaxSize (encode saved).length
        head).readDiskBytes buffer (min (encode saved).length newMaxSize) maxSize true =
      .ok ((encode saved).take (min (encode saved).length newMaxSize)) :=
  EmerCircularFile.readDiskBytes_of_ringHolds rfl h.kept.ring h.head_lt.le h.fits
    (Nat.min_le_left _ _) hbuffer

/-- The longest prefix within what is read is the longest one within the new maximum size. -/
theorem takeWithin_min (saved : List Bytes) (budget : Nat) :
    takeWithin frameLength (min (encode saved).length budget) saved =
      takeWithin frameLength budget saved := by
  by_cases hle : (encode saved).length ≤ budget
  · rw [Nat.min_eq_left hle, takeWithin_of_sum_le (by rw [← length_encode]),
      takeWithin_of_sum_le (by rwa [← length_encode])]
  · rw [Nat.min_eq_right (by omega)]

/-- Resizing ends with the longest prefix that fits in a data file of its own. -/
theorem resize_eq (h : StoredOnDisk bounded disk maxSize saved keyFile head contents)
    (hne : maxSize ≠ newMaxSize) (hnew : newMaxSize < 2 ^ 64) (uninitialised : Nat → UInt8) :
    ∃ keyFile', Describes keyFile' newMaxSize
        (encode (takeWithin frameLength newMaxSize saved)).length 0 ∧
      (EmerCircularFile.parsedObject contents keyFile newMaxSize (encode saved).length head).resize
          maxSize uninitialised .none =
        (.ok (), EmerCircularFile.parsedObject
          (encode (takeWithin frameLength newMaxSize saved)) keyFile' newMaxSize
          (encode (takeWithin frameLength newMaxSize saved)).length 0) := by
  have hfits := h.fits
  have hlt := h.maxSize_lt
  obtain ⟨newSize, htrimmed, hkept⟩ := EmerCircularFile.trimmed_encode h.nonempty
    (Nat.min_le_left (encode saved).length newMaxSize) (by omega)
  have hread := h.readDiskBytes_eq newMaxSize
    (@List.length_map _ _ (List.range (min (encode saved).length newMaxSize)) uninitialised |>.trans
      List.length_range)
  have hlen : (encode (takeWithin frameLength newMaxSize saved)).length ≤ newMaxSize := by
    rw [length_encode]
    exact sum_takeWithin_le frameLength newMaxSize saved
  rw [takeWithin_min] at hkept
  have hdone := EmerCircularFile.overwrite_succeeding
    (EmerCircularFile.parsedObject contents keyFile newMaxSize (encode saved).length head)
    (encode (takeWithin frameLength newMaxSize saved)) maxSize
  obtain ⟨keyFile', hdescribes, heq⟩ := EmerCircularFile.overwrite_ok hnew (by omega) hne hdone
  refine ⟨keyFile', hdescribes, ?_⟩
  have hfault : decide (InitFault.none ≠ InitFault.readData) = true := by decide
  unfold EmerCircularFile.resize
  rw [if_neg (show ¬ maxSize = (EmerCircularFile.parsedObject contents keyFile newMaxSize
    (encode saved).length head).maxSize from hne), hfault]
  simp only [EmerCircularFile.parsedObject] at hread hdone heq ⊢
  simp only [hread, htrimmed, hkept]
  exact Prod.ext hdone heq

/-- Opening at another maximum size. -/
theorem new_resized (h : StoredOnDisk bounded disk maxSize saved keyFile head contents)
    (hne : maxSize ≠ newMaxSize) (hnew : newMaxSize < 2 ^ 64) (uninitialised : Nat → UInt8) :
    ∃ keyFile', Describes keyFile' newMaxSize
        (encode (takeWithin frameLength newMaxSize saved)).length 0 ∧
      EmerCircularFile.new disk newMaxSize false uninitialised .none =
        (.ok (EmerCircularFile.parsedObject
            (encode (takeWithin frameLength newMaxSize saved)) keyFile' newMaxSize
            (encode (takeWithin frameLength newMaxSize saved)).length 0),
          ⟨some (encode (takeWithin frameLength newMaxSize saved)), .parsed keyFile'⟩) := by
  obtain ⟨keyFile', hdescribes, hresize⟩ := h.resize_eq hne hnew uninitialised
  obtain ⟨dataFile, metadataFile⟩ := disk
  have hdata : dataFile = some contents := h.dataFile
  have hmetadata : metadataFile = .parsed keyFile := h.metadataFile
  subst hdata hmetadata
  refine ⟨keyFile', hdescribes, ?_⟩
  exact @EmerCircularFile.new_of_accepted (some contents) keyFile newMaxSize uninitialised
    h.describes.hasGroup _ _ _ h.parseMetadata_eq _ _ hresize

/-- Opening at a maximum size of at least one gives an object that holds what is kept. -/
theorem new_keeps (h : StoredOnDisk bounded disk maxSize saved keyFile head contents)
    (hpos : 1 ≤ newMaxSize) (hnew : newMaxSize < 2 ^ 64) (uninitialised : Nat → UInt8) :
    ∃ file contents', EmerCircularFile.new disk newMaxSize false uninitialised .none =
        (.ok file, file.disk) ∧
      Keeps bounded file contents' newMaxSize ⟨takeWithin frameLength newMaxSize saved, []⟩ ∧
      (newMaxSize ≠ maxSize → file.head = 0) := by
  have hkept : ∀ elem ∈ takeWithin frameLength newMaxSize saved ++ [], elem ≠ [] := by
    intro elem he
    rw [List.append_nil] at he
    exact h.nonempty elem ((takeWithin_isPrefix frameLength newMaxSize saved).subset he)
  by_cases hne : maxSize = newMaxSize
  -- the same maximum size: everything stays as it is on disk
  · subst hne
    have hall : takeWithin frameLength maxSize saved = saved :=
      takeWithin_of_sum_le (by rw [← length_encode]; exact h.fits)
    rw [hall] at hkept ⊢
    have heq := new_of_describes h.dataFile h.metadataFile h.describes h.fits h.head_lt
      uninitialised
    refine ⟨_, contents, heq, ?_, by simp⟩
    exact ⟨⟨h.metadataFile, h.describes⟩, h.dataFile, rfl, h.maxSize_lt, rfl, rfl, h.fits,
      h.head_lt, h.kept, hkept⟩
  · obtain ⟨keyFile', hdescribes, heq⟩ := h.new_resized hne hnew uninitialised
    have hlen : (encode (takeWithin frameLength newMaxSize saved)).length ≤ newMaxSize := by
      rw [length_encode]
      exact sum_takeWithin_le frameLength newMaxSize saved
    refine ⟨_, encode (takeWithin frameLength newMaxSize saved), heq, ?_, fun _ => rfl⟩
    exact ⟨⟨rfl, hdescribes⟩, rfl, rfl, hnew, rfl, rfl, hlen, hpos, RingKept.self hlen, hkept⟩

end StoredOnDisk

end EventRecorder
