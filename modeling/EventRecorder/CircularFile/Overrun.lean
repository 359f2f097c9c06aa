import EventRecorder.CircularFile.FailedMetadata

/-!
# Reading corrupt data

The loop of a read looks at the position that it has reached, not at the length that an element
declares.  An element that starts within the logical size and declares a length beyond it is read
all the same where the data file has the bytes, and then the token is larger than the size.
-/

namespace EventRecorder

open Theory

namespace EmerCircularFile

variable {self : EmerCircularFile} {stream next final : FileInputStream}
  {elem elemData : Bytes} {elems : List Bytes} {budget : Nat}

/-! ## 1. Streams over arbitrary bytes -/

theorem readAll_contents (stream : FileInputStream) (count : Nat) :
    (stream.readAll count).2.contents = stream.contents :=
  rfl

theorem length_readAll_le (stream : FileInputStream) (count : Nat) :
    (stream.readAll count).1.length ≤ stream.contents.length := by
  unfold FileInputStream.readAll
  rw [List.length_take, List.length_drop]
  omega

/-- What is read has the length that was asked for, and it goes round at most once. -/
theorem readBytes_eq_ok {count : Nat} (h : self.readBytes stream count = .ok (elemData, next)) :
    elemData.length = count ∧ count ≤ 2 * stream.contents.length ∧
      next.contents = stream.contents := by
  have hfirst := length_readAll_le stream count
  unfold readBytes at h
  simp only at h
  generalize hread : stream.readAll count = first at h hfirst
  have hcontents : first.2.contents = stream.contents := by
    rw [← hread]
    exact readAll_contents stream count
  unfold continueReadingFromStart at h
  by_cases hall : first.1.length = count
  · rw [if_pos hall] at h
    cases h
    exact ⟨hall, by omega, hcontents⟩
  rw [if_neg hall] at h
  by_cases hposition : first.2.position ≠ self.maxSize
  · rw [if_pos hposition] at h
    cases h
  rw [if_neg hposition] at h
  have hsecond := length_readAll_le (first.2.seek 0) (count - first.1.length)
  have hstart : (first.2.seek 0).contents = stream.contents := hcontents
  simp only at h
  generalize hread' : (first.2.seek 0).readAll (count - first.1.length) = second at h hsecond
  have hcontents' : second.2.contents = stream.contents := by
    rw [← hread', readAll_contents]
    exact hstart
  by_cases hrest : count - first.1.length ≠ second.1.length
  · rw [if_pos hrest] at h
    cases h
  rw [if_neg hrest] at h
  cases h
  rw [hstart] at hsecond
  have hle : first.1.length ≤ count := by
    rw [← hread, FileInputStream.readAll, List.length_take]
    exact Nat.min_le_left _ _
  rw [List.length_append]
  exact ⟨by omega, by omega, hcontents'⟩

/-- The elements that lie one behind the other between two positions of a stream. -/
def HasElems (self : EmerCircularFile) : FileInputStream → List Bytes → FileInputStream → Prop
  | stream, [], final => final = stream
  | stream, elem :: elems, final =>
    ∃ afterSize afterElem, self.readElemSize stream = .ok (elem.length, afterSize) ∧
      self.readBytes afterSize elem.length = .ok (elem, afterElem) ∧
      self.HasElems afterElem elems final

theorem HasElems.append {more : List Bytes} (h : self.HasElems stream elems next)
    (hmore : self.HasElems next more final) : self.HasElems stream (elems ++ more) final := by
  induction elems generalizing stream with
  | nil =>
    cases h
    exact hmore
  | cons elem elems ih =>
    obtain ⟨afterSize, afterElem, hsize, hdata, hrest⟩ := h
    exact ⟨afterSize, afterElem, hsize, hdata, ih hrest⟩

theorem readElemSize_contents {elemSize : Nat}
    (h : self.readElemSize stream = .ok (elemSize, next)) :
    next.contents = stream.contents := by
  unfold readElemSize at h
  cases hread : self.readBytes stream sizeofElemSize with
  | error e =>
    rw [hread] at h
    cases h
  | ok result =>
    obtain ⟨bytes, after⟩ := result
    rw [hread] at h
    cases h
    exact (readBytes_eq_ok hread).2.2

/-- Nothing goes round in a file that is shorter than the maximum size. -/
theorem readBytes_short {count : Nat} (h : self.readBytes stream count = .ok (elemData, next))
    (hshort : stream.contents.length < self.maxSize)
    (hposition : stream.position ≤ stream.contents.length) :
    stream.position + count ≤ stream.contents.length ∧ next.contents = stream.contents ∧
      next.position = stream.position + count := by
  unfold readBytes FileInputStream.readAll continueReadingFromStart at h
  simp only at h
  have hlength : ((stream.contents.drop stream.position).take count).length =
      min count (stream.contents.length - stream.position) := by
    rw [List.length_take, List.length_drop]
  by_cases hall : ((stream.contents.drop stream.position).take count).length = count
  · rw [if_pos hall] at h
    cases h
    refine ⟨by omega, rfl, ?_⟩
    show stream.position + _ = _
    rw [hall]
  · rw [if_neg hall, if_pos (by omega)] at h
    cases h

theorem HasElems.end_le (h : self.HasElems stream elems final)
    (hshort : stream.contents.length < self.maxSize)
    (hposition : stream.position ≤ stream.contents.length) :
    stream.position + (encode elems).length ≤ stream.contents.length := by
  induction elems generalizing stream with
  | nil => exact hposition
  | cons elem elems ih =>
    obtain ⟨afterSize, afterElem, hsize, hdata, hrest⟩ := h
    unfold readElemSize at hsize
    cases hread : self.readBytes stream sizeofElemSize with
    | error e =>
      rw [hread] at hsize
      cases hsize
    | ok answer =>
      obtain ⟨littleEndian, next⟩ := answer
      rw [hread] at hsize
      obtain ⟨-, rfl⟩ := Prod.mk.inj (Except.ok.inj hsize)
      obtain ⟨hle, hcontents, hnext⟩ := readBytes_short hread hshort hposition
      have hsizeof : sizeofElemSize = 8 := rfl
      obtain ⟨hle', hcontents', hnext'⟩ := readBytes_short hdata (by rw [hcontents]; exact hshort)
        (by rw [hcontents]; omega)
      have hend := ih hrest (by rw [hcontents', hcontents]; exact hshort)
        (by rw [hcontents', hnext']; exact hle')
      rw [length_encode_cons]
      rw [hcontents', hcontents, hnext', hnext] at hend
      omega

/-! ## 2. Elements that end behind the logical size -/

/-- Every element that starts within the logical size, that the budget admits behind the ones in
front of it and that the data file has in full ends within the logical size. -/
def EndWithinSize (self : EmerCircularFile) (contents : Bytes) (budget : Nat) : Prop :=
  ∀ (elems : List Bytes) (last : Bytes) (final : FileInputStream),
    self.HasElems ⟨contents, self.head⟩ (elems ++ [last]) final → [] ∉ elems ++ [last] →
    (encode elems).length < self.size → (elems.map List.length).sum ≤ budget →
    -- the budget is compared with a 64-bit sum
    ((elems ++ [last]).map List.length).sum % 2 ^ 64 ≤ budget →
    (encode (elems ++ [last])).length ≤ self.size

/-- One round of the loop goes on to the next element. -/
theorem HasElems.snoc {afterSize afterElem : FileInputStream}
    (h : self.HasElems stream elems next)
    (hsize : self.readElemSize next = .ok (elem.length, afterSize))
    (hdata : self.readBytes afterSize elem.length = .ok (elem, afterElem)) :
    self.HasElems stream (elems ++ [elem]) afterElem :=
  h.append ⟨afterSize, afterElem, hsize, hdata, rfl⟩

/-- A round of the loop ends it or reads one more element. -/
theorem readElems_cases {fuel currDataBytes currDiskBytes : Nat} {result : ElemsRead}
    (h : self.readElems budget fuel stream elems currDataBytes currDiskBytes = .ok result) :
    (∃ hasInvalid, result = ⟨elems, currDiskBytes, hasInvalid⟩) ∨
      ∃ (fuel' : Nat) (elem : Bytes) (afterSize afterElem : FileInputStream),
        fuel = fuel' + 1 ∧ currDiskBytes < self.size ∧
        self.readElemSize stream = .ok (elem.length, afterSize) ∧
        self.readBytes afterSize elem.length = .ok (elem, afterElem) ∧ elem ≠ [] ∧
        (currDataBytes + elem.length) % 2 ^ 64 ≤ budget ∧
        self.readElems budget fuel' afterElem (elems ++ [elem])
          ((currDataBytes + elem.length) % 2 ^ 64) ((currDiskBytes + 8 + elem.length) % 2 ^ 64) =
            .ok result := by
  cases fuel with
  | zero =>
    rw [readElems] at h
    split at h
    · cases h
    · exact .inl ⟨false, (Except.ok.inj h).symm⟩
  | succ fuel =>
    rw [readElems] at h
    by_cases hlt : currDiskBytes < self.size
    · rw [if_pos hlt] at h
      cases hread : self.readElemSize stream with
      | error e =>
        rw [hread] at h
        cases h
      | ok answer =>
        obtain ⟨elemSize, afterSize⟩ := answer
        rw [hread] at h
        simp only at h
        by_cases hzero : elemSize = 0
        · rw [if_pos hzero] at h
          exact .inl ⟨true, (Except.ok.inj h).symm⟩
        rw [if_neg hzero] at h
        by_cases hover : (currDataBytes + elemSize) % 2 ^ 64 > budget
        · rw [if_pos hover] at h
          exact .inl ⟨false, (Except.ok.inj h).symm⟩
        rw [if_neg hover] at h
        unfold appendElemToArray at h
        cases hbytes : self.readBytes afterSize elemSize with
        | error e =>
          rw [hbytes] at h
          cases h
        | ok answer =>
          obtain ⟨elem, afterElem⟩ := answer
          rw [hbytes] at h
          have hlength := (readBytes_eq_ok hbytes).1
          subst hlength
          have hne : elem ≠ [] := fun hnil => hzero (by rw [hnil, List.length_nil])
          exact .inr ⟨fuel, elem, afterSize, afterElem, rfl, hlt, rfl, hbytes, hne,
            Nat.not_lt.mp hover, h⟩
    · rw [if_neg hlt] at h
      exact .inl ⟨false, (Except.ok.inj h).symm⟩

theorem readElems_within {contents : Bytes} (hend : self.EndWithinSize contents budget)
    (hsize : self.size < 2 ^ 64) {fuel currDataBytes currDiskBytes : Nat} {result : ElemsRead}
    (hreached : self.HasElems ⟨contents, self.head⟩ elems stream) (hnonempty : [] ∉ elems)
    (hdata : currDataBytes = (elems.map List.length).sum)
    (hdisk : currDiskBytes = (encode elems).length) (hbudget : currDataBytes ≤ budget)
    (hwithin : currDiskBytes ≤ self.size)
    (h : self.readElems budget fuel stream elems currDataBytes currDiskBytes = .ok result) :
    result.diskBytes ≤ self.size ∧ (result.elems.map List.length).sum ≤ budget := by
  -- the induction is on the rounds of the loop; the condition bounds what each round adds
  induction fuel generalizing stream elems currDataBytes currDiskBytes with
  | zero =>
    cases readElems_cases h with
    | inl hended =>
      obtain ⟨hasInvalid, rfl⟩ := hended
      exact ⟨hwithin, hdata ▸ hbudget⟩
    | inr hround =>
      obtain ⟨fuel', -, -, -, hfuel, -⟩ := hround
      cases hfuel
  | succ fuel ih =>
    cases readElems_cases h with
    | inl hended =>
      obtain ⟨hasInvalid, rfl⟩ := hended
      exact ⟨hwithin, hdata ▸ hbudget⟩
    | inr hround =>
      obtain ⟨fuel', elem, afterSize, afterElem, hfuel, hlt, hread, hbytes, hne, hadmitted,
        hrest⟩ := hround
      cases hfuel
      have hnext := hreached.snoc hread hbytes
      have hmember : [] ∉ elems ++ [elem] := by
        intro hmem
        cases List.mem_append.mp hmem with
        | inl hold => exact hnonempty hold
        | inr hnew => exact hne (List.mem_singleton.mp hnew).symm
      have hsum : ((elems ++ [elem]).map List.length).sum = currDataBytes + elem.length := by
        rw [List.map_append, List.sum_append, ← hdata]
        simp
      have hbound := hend elems elem afterElem hnext hmember (by omega) (by omega)
        (by rw [hsum]; omega)
      have hlarge := sum_length_le_length_encode elems
      have hencode := length_encode_snoc elems elem
      have hdataNext : (currDataBytes + elem.length) % 2 ^ 64 = currDataBytes + elem.length :=
        Nat.mod_eq_of_lt (by omega)
      have hdiskNext : (currDiskBytes + 8 + elem.length) % 2 ^ 64 =
          (encode (elems ++ [elem])).length := by
        rw [hencode, ← hdisk, Nat.mod_eq_of_lt (by omega)]
      rw [hdataNext, hdiskNext] at hrest
      exact ih hnext hmember hsum.symm rfl (by omega) hbound hrest

/-- Once the size is reached the loop ends. -/
theorem readElems_of_reached {fuel currDataBytes currDiskBytes : Nat}
    (hreached : self.size ≤ currDiskBytes) :
    self.readElems budget fuel stream elems currDataBytes currDiskBytes =
      .ok ⟨elems, currDiskBytes, false⟩ := by
  cases fuel with
  | zero => rw [readElems, if_neg (by omega)]
  | succ fuel => rw [readElems, if_neg (by omega)]

theorem readElems_hasElems {start : FileInputStream}
    {fuel currDataBytes currDiskBytes : Nat} {result : ElemsRead}
    (hreached : self.HasElems start elems stream)
    (h : self.readElems budget fuel stream elems currDataBytes currDiskBytes = .ok result) :
    ∃ final, self.HasElems start result.elems final := by
  induction fuel generalizing stream elems currDataBytes currDiskBytes with
  | zero =>
    cases readElems_cases h with
    | inl hended =>
      obtain ⟨hasInvalid, rfl⟩ := hended
      exact ⟨_, hreached⟩
    | inr hround =>
      obtain ⟨fuel', -, -, -, hfuel, -⟩ := hround
      cases hfuel
  | succ fuel ih =>
    cases readElems_cases h with
    | inl hended =>
      obtain ⟨hasInvalid, rfl⟩ := hended
      exact ⟨_, hreached⟩
    | inr hround =>
      obtain ⟨fuel', elem, afterSize, afterElem, hfuel, -, hread, hbytes, -, -, hrest⟩ := hround
      cases hfuel
      exact ih (hreached.snoc hread hbytes) hrest

/-- What a read returns lies in the data file from the head on. -/
theorem read_hasElems {saved hasInvalid : Bool} {contents : Bytes} {result : ReadResult}
    {after : EmerCircularFile} (hcontents : self.disk.dataFile = some contents)
    (h : self.read budget saved = (.ok result, hasInvalid, after)) :
    ∃ final, self.HasElems ⟨contents, self.head⟩ result.elems final := by
  rw [read] at h
  by_cases hzero : self.size = 0
  · rw [if_pos hzero] at h
    cases h
    exact ⟨_, rfl⟩
  rw [if_neg hzero, hcontents] at h
  simp only at h
  have hstart : self.HasElems ⟨contents, self.head⟩ [] ⟨contents, self.head⟩ := rfl
  cases hloop : self.readElems budget self.size ⟨contents, self.head⟩ [] 0 0 with
  | error e =>
    rw [hloop] at h
    cases h
  | ok answer =>
    rw [hloop] at h
    simp only at h
    have hhas := readElems_hasElems hstart hloop
    by_cases hinvalid : answer.hasInvalid = true
    · rw [if_pos hinvalid] at h
      cases h
      exact hhas
    · rw [if_neg hinvalid] at h
      cases h
      exact hhas

/-- One round of the loop reads an element that the budget admits. -/
theorem readElems_round {afterSize afterElem : FileInputStream}
    {fuel currDataBytes currDiskBytes : Nat} (hlt : currDiskBytes < self.size)
    (hsize : self.readElemSize stream = .ok (elem.length, afterSize))
    (hdata : self.readBytes afterSize elem.length = .ok (elem, afterElem)) (hnonempty : elem ≠ [])
    (hsum : currDataBytes + elem.length ≤ budget) (hbudget : budget < 2 ^ 64)
    (hwrap : currDiskBytes + 8 + elem.length < 2 ^ 64) :
    self.readElems budget (fuel + 1) stream elems currDataBytes currDiskBytes =
      self.readElems budget fuel afterElem (elems ++ [elem]) (currDataBytes + elem.length)
        (currDiskBytes + 8 + elem.length) := by
  have hlength : ¬ elem.length = 0 := fun hzero => hnonempty (List.length_eq_zero_iff.mp hzero)
  rw [readElems, if_pos hlt, hsize]
  simp only
  rw [if_neg hlength, Nat.mod_eq_of_lt (show currDataBytes + elem.length < 2 ^ 64 by omega),
    if_neg (by omega), appendElemToArray, hdata]
  simp only
  rw [sizeofElemSize, Nat.mod_eq_of_lt hwrap]

/-- The loop reads an element that ends behind the size, and ends behind the size itself. -/
theorem readElems_overrun {last : Bytes} (hbudget : budget < 2 ^ 64)
    (hhas : self.HasElems stream (elems ++ [last]) final) (hnonempty : [] ∉ elems ++ [last])
    (elemArray : List Bytes) {fuel : Nat} (currDataBytes currDiskBytes : Nat)
    (hfuel : elems.length < fuel) (hstart : currDiskBytes + (encode elems).length < self.size)
    (hsum : currDataBytes + ((elems ++ [last]).map List.length).sum ≤ budget)
    (hover : self.size ≤ currDiskBytes + (encode (elems ++ [last])).length)
    (hwrap : currDiskBytes + (encode (elems ++ [last])).length < 2 ^ 64) :
    self.readElems budget fuel stream elemArray currDataBytes currDiskBytes =
      .ok ⟨elemArray ++ (elems ++ [last]),
        currDiskBytes + (encode (elems ++ [last])).length, false⟩ := by
  induction elems generalizing stream elemArray fuel currDataBytes currDiskBytes with
  | nil =>
    obtain ⟨fuel, rfl⟩ : ∃ n, fuel = n + 1 := ⟨fuel - 1, by rw [List.length_nil] at hfuel; omega⟩
    obtain ⟨afterSize, afterElem, hsize, hdata, -⟩ := hhas
    have hlength : (encode [last]).length = 8 + last.length := length_encode_cons last []
    rw [List.nil_append] at hover hwrap hsum hnonempty ⊢
    rw [List.map_singleton, List.sum_singleton] at hsum
    rw [hlength] at hover hwrap ⊢
    rw [readElems_round (by rw [encode_nil] at hstart; exact hstart) hsize hdata
      (fun hnil => hnonempty (by rw [hnil]; exact List.mem_singleton_self _)) hsum hbudget
      (by omega), readElems_of_reached (by omega), Nat.add_assoc]
  | cons elem elems ih =>
    obtain ⟨fuel, rfl⟩ : ∃ n, fuel = n + 1 :=
      ⟨fuel - 1, by rw [List.length_cons] at hfuel; omega⟩
    obtain ⟨afterSize, afterElem, hsize, hdata, hrest⟩ := hhas
    rw [List.cons_append] at hnonempty hsum hover hwrap ⊢
    rw [List.map_cons, List.sum_cons] at hsum
    rw [List.length_cons] at hfuel
    rw [length_encode_cons] at hstart hover hwrap ⊢
    rw [readElems_round (by omega) hsize hdata
      (fun hnil => hnonempty (by rw [hnil]; exact List.mem_cons_self)) (by omega) hbudget
      (by omega)]
    rw [ih hrest (fun hmem => hnonempty (List.mem_cons_of_mem _ hmem)) _ _ _ (by omega) (by omega)
      (by omega) (by omega) (by omega), List.append_assoc]
    have hdisk : currDiskBytes + 8 + elem.length + (encode (elems ++ [last])).length =
        currDiskBytes + (8 + elem.length + (encode (elems ++ [last])).length) := by
      omega
    rw [hdisk]
    rfl

/-! ## 3. Reads that keep the invariant -/

/-- The size and the head in the metadata file are in range. -/
def MetadataInRange (disk : CircularFileOnDisk) (maxSize : Nat) : Prop :=
  ∃ (keyFile : KeyFile) (size head : Nat), disk.metadataFile = .parsed keyFile ∧
    Describes keyFile maxSize size head ∧ size ≤ maxSize ∧ head < maxSize

/-- The size and the head are in range, in memory and in the metadata file. -/
structure InRange (file : EmerCircularFile) : Prop where
  maxSize_pos : 1 ≤ file.maxSize
  maxSize_lt : file.maxSize < 2 ^ 63
  size_le : file.size ≤ file.maxSize
  head_lt : file.head < file.maxSize
  keyFile : file.metadataKeyFile.getUint64 metadataGroupName maxSizeKey = .ok file.maxSize
  onDisk : MetadataInRange file.disk file.maxSize

theorem InRange.setMetadata (h : InRange self) {size head : Nat} (hsize : size ≤ self.maxSize)
    (hhead : head < self.maxSize) (saved : Bool) :
    InRange (self.setMetadata size head saved).2 := by
  have hmaxSize := h.maxSize_lt
  have hdescribes := describes_setSizeHead h.keyFile (show size < 2 ^ 64 by omega)
    (show head < 2 ^ 63 by omega)
  rw [setMetadata_eq]
  cases saved with
  | false =>
    exact { h with keyFile := hdescribes.maxSize_eq }
  | true =>
    exact ⟨h.maxSize_pos, h.maxSize_lt, hsize, hhead, hdescribes.maxSize_eq,
      _, size, head, rfl, hdescribes, hsize, hhead⟩

/-- Such a file is opened again at its maximum size. -/
theorem InRange.reopened (h : InRange self) (hdata : self.disk.dataFile ≠ none)
    (uninitialised : Nat → UInt8) :
    ∃ file, (EmerCircularFile.new self.disk self.maxSize false uninitialised .none).1 =
      .ok file := by
  obtain ⟨keyFile, size, head, hmetadata, hdescribes, hsize, hhead⟩ := h.onDisk
  obtain ⟨contents, hcontents⟩ := Option.ne_none_iff_exists'.mp hdata
  rw [new_of_describes hcontents hmetadata hdescribes hsize hhead]
  exact ⟨_, rfl⟩

/-- What a read that returns `TRUE` has to give: elements within the budget, and a token that can
be removed such that the file can be opened again. -/
def ReadsSafely (self : EmerCircularFile) (budget : Nat) (saved : Bool) : Prop :=
  ∀ result hasInvalid next, self.read budget saved = (.ok result, hasInvalid, next) →
    (result.elems.map List.length).sum ≤ budget ∧ result.token ≤ next.size ∧
      InRange (next.remove result.token true).2 ∧
      ∀ uninitialised, ∃ file, (EmerCircularFile.new (next.remove result.token true).2.disk
        self.maxSize false uninitialised .none).1 = .ok file

theorem InRange.remove (h : InRange self) {token : Nat} (htoken : token ≤ self.size) :
    InRange (self.remove token true).2 := by
  have hsize := h.size_le
  have hmaxSize := h.maxSize_lt
  rw [EmerCircularFile.remove]
  split
  · exact h
  · apply h.setMetadata
    · rw [sub_token (by omega) htoken]
      omega
    · exact Nat.mod_lt _ h.maxSize_pos

theorem setMetadata_dataFile (self : EmerCircularFile) (size head : Nat) (saved : Bool) :
    (self.setMetadata size head saved).2.disk.dataFile = self.disk.dataFile := by
  rw [setMetadata_eq]
  cases saved <;> rfl

theorem read_safely_of_endWithinSize (h : InRange self) {contents : Bytes}
    (hcontents : self.disk.dataFile = some contents) {saved : Bool}
    (hend : self.EndWithinSize contents budget) : self.ReadsSafely budget saved := by
  intro result hasInvalid next hread
  have hsize := h.size_le
  have hmaxSize := h.maxSize_lt
  -- the state that the read leaves, in range and with the token within its size
  have hafter : InRange next ∧ next.maxSize = self.maxSize ∧
      next.disk.dataFile = self.disk.dataFile ∧ result.token ≤ next.size ∧
      (result.elems.map List.length).sum ≤ budget := by
    rw [read] at hread
    by_cases hzero : self.size = 0
    · rw [if_pos hzero] at hread
      cases hread
      exact ⟨h, rfl, rfl, Nat.zero_le _, Nat.zero_le _⟩
    rw [if_neg hzero, hcontents] at hread
    simp only at hread
    cases hloop : self.readElems budget self.size ⟨contents, self.head⟩ [] 0 0 with
    | error e =>
      rw [hloop] at hread
      cases hread
    | ok answer =>
      rw [hloop] at hread
      simp only at hread
      have hstart : self.HasElems ⟨contents, self.head⟩ [] ⟨contents, self.head⟩ := rfl
      obtain ⟨hdisk, hsum⟩ := readElems_within hend (show self.size < 2 ^ 64 by omega) hstart
        List.not_mem_nil rfl rfl (Nat.zero_le _) (Nat.zero_le _) hloop
      by_cases hinvalid : answer.hasInvalid = true
      · rw [if_pos hinvalid] at hread
        have hstate := h.setMetadata (show answer.diskBytes ≤ self.maxSize by omega) h.head_lt saved
        have hsame := self.setMetadata_maxSize answer.diskBytes self.head saved
        have hfile := self.setMetadata_dataFile answer.diskBytes self.head saved
        have hle : answer.diskBytes ≤
            (self.setMetadata answer.diskBytes self.head saved).2.size := by
          rw [setMetadata_eq]
          cases saved with
          | false => exact hdisk
          | true => exact le_refl _
        generalize self.setMetadata answer.diskBytes self.head saved = after at *
        cases hread
        exact ⟨hstate, hsame, hfile, hle, hsum⟩
      · rw [if_neg hinvalid] at hread
        cases hread
        exact ⟨h, rfl, rfl, hdisk, hsum⟩
  obtain ⟨hrange, hsame, hfile, htoken, hsum⟩ := hafter
  have hremoved := hrange.remove htoken
  have hdata : (next.remove result.token true).2.disk.dataFile ≠ none := by
    have hnext : next.disk.dataFile ≠ none := by
      rw [hfile, hcontents]
      exact Option.some_ne_none _
    rw [EmerCircularFile.remove]
    split
    · exact hnext
    · rwa [setMetadata_dataFile]
  refine ⟨hsum, htoken, hremoved, fun uninitialised => ?_⟩
  have hreopened := hremoved.reopened hdata uninitialised
  rwa [remove_maxSize, hsame] at hreopened

theorem HasElems.contents {last : Bytes} (h : self.HasElems stream (elems ++ [last]) final) :
    last.length ≤ 2 * stream.contents.length := by
  induction elems generalizing stream with
  | nil =>
    obtain ⟨afterSize, afterElem, hsize, hdata, -⟩ := h
    have hlength := (readBytes_eq_ok hdata).2.1
    rwa [readElemSize_contents hsize] at hlength
  | cons elem elems ih =>
    obtain ⟨afterSize, afterElem, hsize, hdata, hrest⟩ := h
    have hlength := ih hrest
    rwa [(readBytes_eq_ok hdata).2.2, readElemSize_contents hsize] at hlength

theorem endWithinSize_of_read_safely {contents : Bytes} (hbudget : budget < 2 ^ 64)
    (hcontents : self.disk.dataFile = some contents) (hphysical : contents.length ≤ self.maxSize)
    (hsize : self.size ≤ self.maxSize) (hwrap : 3 * self.maxSize + 8 ≤ 2 ^ 64) {saved : Bool}
    (hsafe : self.ReadsSafely budget saved) : self.EndWithinSize contents budget := by
  intro elems last final hhas hnonempty hstart hbefore hsum
  by_contra hover
  have hlast := hhas.contents
  have hencode := length_encode_snoc elems last
  have hlarge := sum_length_le_length_encode (elems ++ [last])
  have hcount := length_le_length_encode elems
  dsimp only at hlast
  have hloop := readElems_overrun hbudget hhas hnonempty [] 0 0 (show elems.length < self.size by
    omega) (by omega) (by omega) (by omega) (by omega)
  have hread : self.read budget saved =
      (.ok ⟨elems ++ [last], (encode (elems ++ [last])).length⟩, false, self) := by
    rw [read, if_neg (by omega), hcontents]
    simp only
    rw [hloop]
    simp
  have htoken := (hsafe _ _ _ hread).2.1
  dsimp only at htoken
  omega

/-- **Which reads keep the invariant.**  It is enough that the elements end within the size, and it
is necessary where the sum of three maximum sizes does not overflow. -/
theorem read_safely_iff (self : EmerCircularFile) (h : InRange self) {contents : Bytes}
    (hcontents : self.disk.dataFile = some contents) (hphysical : contents.length ≤ self.maxSize)
    {budget : Nat} (hbudget : budget < 2 ^ 64) (saved : Bool) :
    (self.EndWithinSize contents budget → self.ReadsSafely budget saved) ∧
      (3 * self.maxSize + 8 ≤ 2 ^ 64 →
        (self.ReadsSafely budget saved ↔ self.EndWithinSize contents budget)) := by
  have henough : self.EndWithinSize contents budget → self.ReadsSafely budget saved :=
    read_safely_of_endWithinSize h hcontents
  exact ⟨henough, fun hwrap => ⟨endWithinSize_of_read_safely hbudget hcontents hphysical h.size_le
    hwrap, henough⟩⟩

/-- A file of 64 bytes at the most and of the logical size 9, with an element that declares three
bytes of which the size covers one. -/
def overrunFile : EmerCircularFile :=
  let keyFile := ((KeyFile.empty.setUint64 metadataGroupName maxSizeKey 64).setUint64
    metadataGroupName sizeKey 9).setInt64 metadataGroupName headKey 0
  ⟨⟨some (encode [[1, 2, 3]]), .parsed keyFile⟩, keyFile, [], 64, 9, 0⟩

theorem overrunFile_inRange : InRange overrunFile where
  maxSize_pos := by decide
  maxSize_lt := by decide
  size_le := by decide
  head_lt := by decide
  keyFile := by decide +kernel
  onDisk := ⟨_, 9, 0, rfl, describes_setSizeHead (by decide +kernel) (by decide) (by decide),
    by decide, by decide⟩

theorem read_safely_iff_overrunFile :
    (overrunFile.EndWithinSize (encode [[1, 2, 3]]) 100 → overrunFile.ReadsSafely 100 true) ∧
      (3 * overrunFile.maxSize + 8 ≤ 2 ^ 64 →
        (overrunFile.ReadsSafely 100 true ↔
          overrunFile.EndWithinSize (encode [[1, 2, 3]]) 100)) :=
  read_safely_iff overrunFile overrunFile_inRange rfl (by decide) (by decide) true

/-- The token of that element is 11.  Removing it makes the size wrap around, which the next opening
refuses. -/
theorem read_overruns_size :
    InRange overrunFile ∧ (overrunFile.read 100 true).1 = .ok ⟨[[1, 2, 3]], 11⟩ ∧
      ¬ overrunFile.ReadsSafely 100 true ∧
      (overrunFile.remove 11 true).2.size = 2 ^ 64 - 2 ∧
      (EmerCircularFile.new (overrunFile.remove 11 true).2.disk 64 false (fun _ => 0) .none).1.map
          EmerCircularFile.size =
        .error (.invalidData ("Logical size of circular file must be at most 64, but was " ++
          "18446744073709551614.")) := by
  refine ⟨overrunFile_inRange, by decide +kernel, fun hsafe => ?_, by decide +kernel,
    by decide +kernel⟩
  have hread : overrunFile.read 100 true = (.ok ⟨[[1, 2, 3]], 11⟩, false, overrunFile) := by
    rw [EmerCircularFile.read, if_neg (by decide)]
    rfl
  exact absurd (hsafe _ _ _ hread).2.1 (by decide)

end EmerCircularFile

end EventRecorder
