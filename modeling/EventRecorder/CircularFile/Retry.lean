import EventRecorder.CircularFile.Faults

/-!
# Saves that fail and are tried again

A save that fails leaves the write buffer, the size and the head as they are.  What it has written
by then lies behind the tail, where the next save writes again.
-/

namespace EventRecorder

open Theory

/-! ## 1. A client whose saves may fail -/

inductive RetryOp where
  | append (elem : Bytes)
  | save (fault : SaveFault)
  | read (dataBytesToRead : Nat)
  | remove (place : Nat)
  | purge
  deriving DecidableEq, Repr

/-- A client, with the elements that have been accepted since the last save that succeeded. -/
structure RetryClient extends CircularFileClient where
  accepted : List Bytes

namespace RetryClient

/-- One call, in which only saves fail. -/
def call (client : RetryClient) : RetryOp → RetryClient × CircularFileReply
  | .append elem =>
    let result := client.file.append elem
    ({ client with
        file := result.2
        accepted := if result.1 then client.accepted ++ [elem] else client.accepted },
      .accepted result.1)
  | .save fault =>
    let result := client.file.save fault
    ({ client with
        file := result.2
        accepted := if result.1 = .ok () then [] else client.accepted },
      .done result.1)
  | .read dataBytesToRead =>
    let result := client.afterRead (client.file.read dataBytesToRead true)
    (⟨result.1, client.accepted⟩, result.2)
  | .remove place =>
    let result := client.file.remove (client.token place) true
    (⟨client.afterRemoval result, client.accepted⟩, .done result.1)
  | .purge =>
    let result := client.file.purge true
    (⟨client.afterRemoval result, client.accepted⟩, .done result.1)

def next (client : RetryClient) (op : RetryOp) : RetryClient :=
  (client.call op).1

end RetryClient

namespace EmerCircularFile

/-- If the test of `emer_circular_file_append` lets the element pass, the write buffer with the
element has a length that is a `guint`. -/
def TakesInFull (self : EmerCircularFile) (elem : Bytes) : Prop :=
  (self.size + self.writeBuffer.length + (sizeofElemSize + elem.length) % 2 ^ 64) % 2 ^ 64 ≤
      self.maxSize →
    self.writeBuffer.length + (sizeofElemSize + elem.length) < 2 ^ 32

instance (self : EmerCircularFile) (elem : Bytes) : Decidable (self.TakesInFull elem) :=
  inferInstanceAs (Decidable (_ → _))

/-- The length of a file is a `goffset`. -/
def FileInRange (self : EmerCircularFile) : Prop :=
  (self.disk.dataFile.getD []).length < 2 ^ 63

instance (self : EmerCircularFile) : Decidable self.FileInRange :=
  inferInstanceAs (Decidable (_ < _))

/-- The data file holds the frames of saved elements and the write buffer those of these. -/
def Intact (self : EmerCircularFile) (unsaved : List Bytes) : Prop :=
  ∃ contents saved, HoldsBytes self contents (encode saved) ∧ self.writeBuffer = encode unsaved ∧
    self.size + self.writeBuffer.length ≤ self.maxSize

/-- The frames of these elements are in the ring.  Reads find the elements, up to an empty one,
which no read gets past. -/
def Contains (self : EmerCircularFile) (elems : List Bytes) : Prop :=
  self.ringBytes = .ok (encode elems) ∧
    ∀ budget, (self.read budget true).1.map ReadResult.elems =
      .ok (takeWithin List.length budget (elems.takeWhile (· ≠ [])))

end EmerCircularFile

namespace RetryClient

/-- What a step needs: elements that are accepted are taken in full. -/
def Admits (client : RetryClient) : RetryOp → Prop
  | .append elem => client.file.FileInRange ∧ client.file.TakesInFull elem
  | _ => client.file.FileInRange

instance (client : RetryClient) : ∀ op, Decidable (client.Admits op)
  | .append _ => inferInstanceAs (Decidable (_ ∧ _))
  | .save _ => inferInstanceAs (Decidable client.file.FileInRange)
  | .read _ => inferInstanceAs (Decidable client.file.FileInRange)
  | .remove _ => inferInstanceAs (Decidable client.file.FileInRange)
  | .purge => inferInstanceAs (Decidable client.file.FileInRange)

theorem Admits.fileInRange {client : RetryClient} {op : RetryOp} (h : client.Admits op) :
    client.file.FileInRange := by
  cases op with
  | append => exact h.1
  | save => exact h
  | read => exact h
  | remove => exact h
  | purge => exact h

/-- If the save fails, everything that comes behind it is answered as if it had not been tried. -/
def SaveHarmless (client : RetryClient) (fault : SaveFault) (after : List RetryOp) : Prop :=
  (client.call (.save fault)).2 ≠ .done (.ok ()) →
    outputs call (client.next (.save fault)) after = outputs call client after

/-- If the save succeeds, the elements accepted since the last one that did are behind the others,
once and in order. -/
def SaveAppends (client : RetryClient) (fault : SaveFault) : Prop :=
  (client.call (.save fault)).2 = .done (.ok ()) →
    ∃ elems, client.file.Contains elems ∧
      (client.next (.save fault)).file.Contains (elems ++ client.accepted)

end RetryClient

/-! ## 2. The bytes behind a client -/

namespace HoldsBytes

variable {file : EmerCircularFile} {contents stored : Bytes}

/-- Positions in a file that exists are `goffset`s. -/
theorem offset_lt (h : HoldsBytes file contents stored) (hrange : file.FileInRange) :
    file.size < 2 ^ 63 ∧ file.head + file.size < 2 ^ 64 := by
  have hsize := h.size_eq
  have hle := h.size_le
  have hhead := h.head_lt
  have hfilled := h.stored.filled
  rw [EmerCircularFile.FileInRange, h.dataFile] at hrange
  change contents.length < 2 ^ 63 at hrange
  omega

theorem ringBytes_eq (h : HoldsBytes file contents stored) : file.ringBytes = .ok stored := by
  have hsize := h.size_eq
  have hle := h.size_le
  have hread := @EmerCircularFile.readDiskBytes_of_ringHolds file contents stored
    (List.replicate file.size 0) file.size file.maxSize h.dataFile h.stored.ring h.head_lt.le
    (by omega) hsize.le List.length_replicate
  rwa [hsize, List.take_length, ← hsize] at hread

theorem contains {elems : List Bytes} (h : HoldsBytes file contents (encode elems)) :
    file.Contains elems := by
  refine ⟨h.ringBytes_eq, fun budget => ?_⟩
  rw [h.read_frames budget true rfl rfl]
  rfl

end HoldsBytes

/-! ## 3. What the calls do -/

namespace EmerCircularFile

variable {self : EmerCircularFile}

/-- What is taken in full is the frame of the element, within the maximum size. -/
theorem append_of_takesInFull {elem : Bytes} (hsize : self.size < 2 ^ 63)
    (hfits : self.size + self.writeBuffer.length ≤ self.maxSize) (hmaxSize : self.maxSize < 2 ^ 64)
    (hfull : self.TakesInFull elem) :
    self.append elem = (false, self) ∨
      self.size + (self.writeBuffer ++ frame elem).length ≤ self.maxSize ∧
        self.append elem = (true, { self with writeBuffer := self.writeBuffer ++ frame elem }) := by
  rw [TakesInFull] at hfull
  by_cases hroom : (self.size + self.writeBuffer.length +
      (sizeofElemSize + elem.length) % 2 ^ 64) % 2 ^ 64 ≤ self.maxSize
  · right
    have hshort := hfull hroom
    rw [sizeofElemSize] at hshort hroom
    rw [append_of_sumFits (by omega) (fun _ => by omega), if_pos (by omega)]
    refine ⟨?_, rfl⟩
    rw [List.length_append, length_frame, frameLength]
    omega
  · rw [append]
    exact .inl (if_pos (by omega))

end EmerCircularFile

/-- The elements in the ring, those in the write buffer, and tokens that stand for elements at the
front. -/
structure TracksRing (client : RetryClient) (contents : Bytes) (saved : List Bytes) : Prop where
  bytes : HoldsBytes client.file contents (encode saved)
  writeBuffer_eq : client.file.writeBuffer = encode client.accepted
  fits : client.file.size + client.file.writeBuffer.length ≤ client.file.maxSize
  tokens : ∀ token ∈ client.tokens, ∃ front, front <+: saved.takeWhile (· ≠ []) ∧
    token = (encode front).length

namespace TracksRing

variable {client : RetryClient} {contents : Bytes} {saved : List Bytes}

theorem token_eq (h : TracksRing client contents saved) (place : Nat) :
    ∃ front rest, saved = front ++ rest ∧ client.token place = (encode front).length := by
  rw [CircularFileClient.token]
  cases htoken : client.tokens[place]? with
  | none => exact ⟨[], saved, rfl, rfl⟩
  | some token =>
    obtain ⟨front, hfront, hlength⟩ := h.tokens token (List.mem_of_getElem? htoken)
    obtain ⟨rest, hrest⟩ := hfront.trans (List.takeWhile_prefix _)
    exact ⟨front, rest, hrest.symm, hlength⟩

theorem append (h : TracksRing client contents saved) {elem : Bytes}
    (hsize : client.file.size < 2 ^ 63) (hfull : client.file.TakesInFull elem) :
    TracksRing (client.next (.append elem)) contents saved := by
  rw [RetryClient.next, RetryClient.call]
  rcases EmerCircularFile.append_of_takesInFull hsize h.fits h.bytes.maxSize_lt
    hfull with hrefused | ⟨hroom, haccepted⟩
  · rw [hrefused]
    exact h
  · rw [haccepted]
    refine ⟨{ h.bytes with }, ?_, hroom, h.tokens⟩
    show client.file.writeBuffer ++ frame elem = encode (client.accepted ++ [elem])
    rw [h.writeBuffer_eq, encode_append, encode_singleton]

/-- A save that fails leaves everything but the bytes behind the tail. -/
theorem save_failed (h : TracksRing client contents saved) 
    (hoffset : client.file.head + client.file.size < 2 ^ 64) {fault : SaveFault}
    (hfailed : (client.file.save fault).1 ≠ .ok ()) :
    ∃ contents', TracksRing (client.next (.save fault)) contents' saved := by
  obtain ⟨hmaxSize, -⟩ := client.file.save_ring fault
  obtain ⟨contents', ⟨hreply, -⟩ | ⟨hreply, hbuffer, hbytes⟩⟩ :=
    h.bytes.save_spec h.fits hoffset fault
  · exact absurd hreply hfailed
  · have hsize := hbytes.size_eq.trans h.bytes.size_eq.symm
    rw [RetryClient.next, RetryClient.call]
    refine ⟨contents', hbytes, ?_, ?_, h.tokens⟩
    · simp only [if_neg hfailed]
      exact hbuffer.trans h.writeBuffer_eq
    · show (client.file.save fault).2.size + (client.file.save fault).2.writeBuffer.length ≤ _
      rw [hsize, hbuffer, hmaxSize]
      exact h.fits

/-- A save that succeeds moves what was accepted behind what was saved. -/
theorem save_ok (h : TracksRing client contents saved) 
    (hoffset : client.file.head + client.file.size < 2 ^ 64) {fault : SaveFault}
    (hok : (client.file.save fault).1 = .ok ()) :
    ∃ contents', TracksRing (client.next (.save fault)) contents' (saved ++ client.accepted) := by
  obtain ⟨contents', ⟨-, hbuffer, hbytes⟩ | ⟨hreply, -⟩⟩ :=
    h.bytes.save_spec h.fits hoffset fault
  · rw [h.writeBuffer_eq, ← encode_append] at hbytes
    rw [RetryClient.next, RetryClient.call]
    refine ⟨contents', hbytes, ?_, ?_, fun token htoken => ?_⟩
    · simp only [if_pos hok]
      exact hbuffer
    · show (client.file.save fault).2.size + (client.file.save fault).2.writeBuffer.length ≤ _
      rw [hbuffer]
      exact hbytes.size_le
    -- elements that are saved later do not move the ones a token stands for
    · obtain ⟨front, hfront, hlength⟩ := h.tokens token htoken
      exact ⟨front, hfront.trans (takeWhile_prefix_append _ _), hlength⟩
  · rw [hok] at hreply
    cases hreply

/-- A read gives out a token for the elements that it has found.  Where it gets to an empty one, it
cuts the ring off in front of that. -/
theorem read (h : TracksRing client contents saved) (budget : Nat) {front : List Bytes}
    (hfront : front = saved.takeWhile (· ≠ [])) :
    TracksRing (client.next (.read budget)) contents
      (if takeWithin List.length budget front = front then front else saved) := by
  have hread := h.bytes.read_frames budget true hfront rfl
  have hwithin := takeWithin_isPrefix List.length budget front
  have hsame : front.takeWhile (· ≠ []) = front := by rw [hfront, List.takeWhile_idem]
  obtain ⟨behind, hbehind⟩ : front <+: saved := by
    rw [hfront]
    exact List.takeWhile_prefix _
  have htokens := h.tokens
  rw [← hfront] at htokens
  have htokens : ∀ token ∈ client.tokens ++
      [(encode (takeWithin List.length budget front)).length],
      ∃ elems, elems <+: front ∧ token = (encode elems).length := by
    intro token htoken
    cases List.mem_append.mp htoken with
    | inl hold => exact htokens token hold
    | inr hnew => exact ⟨_, hwithin, List.mem_singleton.mp hnew⟩
  rw [RetryClient.next, RetryClient.call, hread]
  by_cases htaken : takeWithin List.length budget front = front
  · rw [if_pos htaken]
    by_cases hall : front = saved
    · rw [if_neg fun hcut => hcut.2 hall]
      rw [hall] at hsame htokens ⊢
      exact ⟨h.bytes, h.writeBuffer_eq, h.fits, by rwa [hsame]⟩
    · have hbytes := h.bytes
      rw [← hbehind, encode_append] at hbytes
      have hcut := hbytes.cut_off
      have hsize := hbytes.size_eq
      have hfits := h.fits
      rw [List.length_append] at hsize
      rw [if_pos ⟨htaken, hall⟩]
      rw [htaken] at htokens ⊢
      refine ⟨hcut, h.writeBuffer_eq, ?_, by rwa [hsame]⟩
      show (encode front).length + client.file.writeBuffer.length ≤ client.file.maxSize
      omega
  · rw [if_neg htaken, if_neg fun hcut => htaken hcut.1]
    exact ⟨h.bytes, h.writeBuffer_eq, h.fits, by rwa [← hfront]⟩

/-- Removing by a token. -/
theorem remove (h : TracksRing client contents saved)
    (hoffset : client.file.head + client.file.size < 2 ^ 64) {place : Nat}
    {front rest : List Bytes} (hsaved : saved = front ++ rest)
    (htoken : client.token place = (encode front).length) :
    (client.file.remove (client.token place) true).1 = .ok () ∧
      TracksRing (client.next (.remove place)) contents rest := by
  have hmaxSize := client.file.remove_maxSize (client.token place) true
  have hbuffer := client.file.remove_writeBuffer (client.token place) true
  have hsize := h.bytes.size_eq
  have hfits := h.fits
  have hbytes := h.bytes
  rw [hsaved, encode_append] at hbytes
  rw [hsaved, encode_append, List.length_append] at hsize
  rw [RetryClient.next, RetryClient.call]
  rw [htoken] at hmaxSize hbuffer ⊢
  rcases hbytes.remove_spec (by omega) true with ⟨hreply, hnext⟩ | ⟨-, hfailed, -⟩
  · have hsize' := hnext.size_eq
    refine ⟨hreply, hnext, hbuffer.trans h.writeBuffer_eq, ?_, fun token hmem => ?_⟩
    · show (client.file.remove (encode front).length true).2.size +
        (client.file.remove (encode front).length true).2.writeBuffer.length ≤
        (client.file.remove (encode front).length true).2.maxSize
      rw [hbuffer, hmaxSize]
      omega
    · simp only [CircularFileClient.afterRemoval, hreply] at hmem
      cases hmem
  · cases hfailed

theorem purge (h : TracksRing client contents saved) :
    (client.file.purge true).1 = .ok () ∧ TracksRing (client.next .purge) contents [] := by
  have hmaxSize := client.file.purge_maxSize true
  have hbuffer := client.file.purge_writeBuffer true
  have hfits := h.fits
  rw [RetryClient.next, RetryClient.call]
  rcases h.bytes.purge_spec true with ⟨hreply, hnext⟩ | ⟨-, hfailed, -⟩
  · have hsize : (client.file.purge true).2.size = 0 := hnext.size_eq
    refine ⟨hreply, hnext, hbuffer.trans h.writeBuffer_eq, ?_, fun token hmem => ?_⟩
    · show (client.file.purge true).2.size + (client.file.purge true).2.writeBuffer.length ≤
        (client.file.purge true).2.maxSize
      rw [hbuffer, hmaxSize, hsize]
      omega
    · simp only [CircularFileClient.afterRemoval, hreply] at hmem
      cases hmem
  · cases hfailed

end TracksRing

/-! ## 4. Two clients that only differ in their files -/

/-- The same object over other files. -/
def EmerCircularFile.withFiles (self : EmerCircularFile) (disk : CircularFileOnDisk)
    (keyFile : KeyFile) : EmerCircularFile :=
  { self with disk := disk, metadataKeyFile := keyFile }

def RetryClient.withFiles (client : RetryClient) (disk : CircularFileOnDisk) (keyFile : KeyFile) :
    RetryClient :=
  { client with file := client.file.withFiles disk keyFile }

/-- Two clients whose files have the same elements in the ring. -/
structure Alike (client twin : RetryClient) : Prop where
  files : ∃ disk keyFile, twin = client.withFiles disk keyFile
  tracked : ∃ contents contents' saved,
    TracksRing client contents saved ∧ TracksRing twin contents' saved

/-- The reply is the same, and so is everything in memory but the key file. -/
def AnswersAlike (client twin : RetryClient) (op : RetryOp) : Prop :=
  ∃ disk keyFile, twin.call op = ((client.next op).withFiles disk keyFile, (client.call op).2)

theorem TracksRing.alike {client : RetryClient} {contents : Bytes} {saved : List Bytes}
    (h : TracksRing client contents saved) : Alike client client :=
  ⟨⟨client.file.disk, client.file.metadataKeyFile, rfl⟩, contents, contents, saved, h, h⟩

namespace EmerCircularFile

theorem eq_withFiles {self twin : EmerCircularFile} (hbuffer : twin.writeBuffer = self.writeBuffer)
    (hmaxSize : twin.maxSize = self.maxSize) (hsize : twin.size = self.size)
    (hhead : twin.head = self.head) : twin = self.withFiles twin.disk twin.metadataKeyFile := by
  rw [withFiles, ← hbuffer, ← hmaxSize, ← hsize, ← hhead]

variable (self : EmerCircularFile) (disk : CircularFileOnDisk) (keyFile : KeyFile)

theorem append_withFiles (elem : Bytes) :
    (self.withFiles disk keyFile).append elem =
      ((self.append elem).1, (self.append elem).2.withFiles disk keyFile) := by
  unfold append withFiles
  by_cases hrefused : (self.size + self.writeBuffer.length +
      (sizeofElemSize + elem.length) % 2 ^ 64) % 2 ^ 64 > self.maxSize
  · simp only [if_pos hrefused]
  · simp only [if_neg hrefused]

theorem setMetadata_withFiles (size head : Nat) :
    ∃ disk' keyFile', (self.withFiles disk keyFile).setMetadata size head true =
      ((self.setMetadata size head true).1,
        (self.setMetadata size head true).2.withFiles disk' keyFile') :=
  ⟨_, _, rfl⟩

theorem remove_withFiles (token : Nat) :
    ∃ disk' keyFile', (self.withFiles disk keyFile).remove token true =
      ((self.remove token true).1, (self.remove token true).2.withFiles disk' keyFile') := by
  by_cases hnone : token = 0
  · have hself : self.remove token true = (.ok (), self) := if_pos hnone
    have htwin : (self.withFiles disk keyFile).remove token true =
      (.ok (), self.withFiles disk keyFile) := if_pos hnone
    rw [hself, htwin]
    exact ⟨disk, keyFile, rfl⟩
  · have hself : self.remove token true = self.setMetadata _ _ true := if_neg hnone
    have htwin : (self.withFiles disk keyFile).remove token true =
      (self.withFiles disk keyFile).setMetadata _ _ true := if_neg hnone
    rw [hself, htwin]
    exact self.setMetadata_withFiles disk keyFile _ _

theorem purge_withFiles :
    ∃ disk' keyFile', (self.withFiles disk keyFile).purge true =
      ((self.purge true).1, (self.purge true).2.withFiles disk' keyFile') := by
  by_cases hempty : self.size = 0
  · have hself : self.purge true = (.ok (), self) := if_pos hempty
    have htwin : (self.withFiles disk keyFile).purge true =
      (.ok (), self.withFiles disk keyFile) := if_pos hempty
    rw [hself, htwin]
    exact ⟨disk, keyFile, rfl⟩
  · have hself : self.purge true = self.setMetadata 0 0 true := if_neg hempty
    have htwin : (self.withFiles disk keyFile).purge true =
      (self.withFiles disk keyFile).setMetadata 0 0 true := if_neg hempty
    rw [hself, htwin]
    exact self.setMetadata_withFiles disk keyFile 0 0

end EmerCircularFile

/-- Whether a save fails is told by what is in memory, and so is what it leaves there. -/
theorem HoldsBytes.save_withFiles {self : EmerCircularFile} {disk : CircularFileOnDisk}
    {keyFile : KeyFile} {contents contents' stored : Bytes} (h : HoldsBytes self contents stored)
    (h' : HoldsBytes (self.withFiles disk keyFile) contents' stored)
    (hfits : self.size + self.writeBuffer.length ≤ self.maxSize)
    (hoffset : self.head + self.size < 2 ^ 64) (fault : SaveFault) :
    ∃ disk' keyFile', (self.withFiles disk keyFile).save fault =
      ((self.save fault).1, (self.save fault).2.withFiles disk' keyFile') := by
  have hsum : self.size + self.writeBuffer.length < 2 ^ 64 := lt_of_le_of_lt hfits h.maxSize_lt
  have hring := self.save_ring fault
  have hring' := (self.withFiles disk keyFile).save_ring fault
  have hsame : (self.save fault).1 = .ok () ↔
      ((self.withFiles disk keyFile).save fault).1 = .ok () :=
    (EmerCircularFile.save_ok_iff hsum h.dataFile fault).trans
      (@EmerCircularFile.save_ok_iff (self.withFiles disk keyFile) _ hsum h'.dataFile fault).symm
  obtain ⟨after, hspec⟩ := h.save_spec hfits hoffset fault
  obtain ⟨after', hspec'⟩ := h'.save_spec hfits hoffset fault
  generalize self.save fault = result at *
  generalize (self.withFiles disk keyFile).save fault = result' at *
  have halike : result'.1 = result.1 ∧ result'.2.writeBuffer = result.2.writeBuffer ∧
      result'.2.size = result.2.size := by
    rcases hspec with ⟨hreply, hbuffer, hbytes⟩ | ⟨hreply, hbuffer, hbytes⟩
    · rcases hspec' with ⟨hreply', hbuffer', hbytes'⟩ | ⟨hreply', -, -⟩
      · exact ⟨hreply'.trans hreply.symm, hbuffer'.trans hbuffer.symm,
          hbytes'.size_eq.trans hbytes.size_eq.symm⟩
      · rw [hsame.mp hreply] at hreply'
        cases hreply'
    · rcases hspec' with ⟨hreply', -, -⟩ | ⟨hreply', hbuffer', hbytes'⟩
      · rw [hsame.mpr hreply'] at hreply
        cases hreply
      · exact ⟨hreply'.trans hreply.symm, hbuffer'.trans hbuffer.symm,
          hbytes'.size_eq.trans hbytes.size_eq.symm⟩
  have hnext := EmerCircularFile.eq_withFiles halike.2.1 (hring'.1.trans hring.1.symm) halike.2.2
    (hring'.2.trans hring.2.symm)
  exact ⟨result'.2.disk, result'.2.metadataKeyFile, Prod.ext halike.1 hnext⟩

/-- A read finds what is in the ring. -/
theorem HoldsBytes.read_withFiles {self : EmerCircularFile} {disk : CircularFileOnDisk}
    {keyFile : KeyFile} {contents contents' : Bytes} {saved : List Bytes}
    (h : HoldsBytes self contents (encode saved))
    (h' : HoldsBytes (self.withFiles disk keyFile) contents' (encode saved)) (budget : Nat) :
    ∃ disk' keyFile', (self.withFiles disk keyFile).read budget true =
      ((self.read budget true).1, (self.read budget true).2.1,
        (self.read budget true).2.2.withFiles disk' keyFile') := by
  rw [h.read_frames budget true rfl rfl, h'.read_frames budget true rfl rfl]
  by_cases hcut : takeWithin List.length budget (saved.takeWhile (· ≠ [])) =
      saved.takeWhile (· ≠ []) ∧ saved.takeWhile (· ≠ []) ≠ saved
  · rw [if_pos hcut, if_pos hcut]
    exact ⟨_, _, rfl⟩
  · rw [if_neg hcut, if_neg hcut]
    exact ⟨disk, keyFile, rfl⟩

section AnswersAlike

variable (client : RetryClient) (disk : CircularFileOnDisk) (keyFile : KeyFile)

theorem answersAlike_append (elem : Bytes) :
    AnswersAlike client (client.withFiles disk keyFile) (.append elem) := by
  refine ⟨disk, keyFile, ?_⟩
  rw [RetryClient.call, RetryClient.withFiles, EmerCircularFile.append_withFiles]
  rfl

theorem answersAlike_remove (place : Nat) :
    AnswersAlike client (client.withFiles disk keyFile) (.remove place) := by
  obtain ⟨disk', keyFile', hremove⟩ :=
    client.file.remove_withFiles disk keyFile (client.token place)
  have htoken : (client.withFiles disk keyFile).token place = client.token place := rfl
  refine ⟨disk', keyFile', ?_⟩
  rw [RetryClient.call, htoken, RetryClient.withFiles, hremove]
  rfl

theorem answersAlike_purge : AnswersAlike client (client.withFiles disk keyFile) .purge := by
  obtain ⟨disk', keyFile', hpurge⟩ := client.file.purge_withFiles disk keyFile
  refine ⟨disk', keyFile', ?_⟩
  rw [RetryClient.call, RetryClient.withFiles, hpurge]
  rfl

variable {client disk keyFile} {contents contents' : Bytes} {saved : List Bytes}

theorem answersAlike_save (h : TracksRing client contents saved)
    (h' : TracksRing (client.withFiles disk keyFile) contents' saved)
    (hoffset : client.file.head + client.file.size < 2 ^ 64) (fault : SaveFault) :
    AnswersAlike client (client.withFiles disk keyFile) (.save fault) := by
  obtain ⟨disk', keyFile', hsave⟩ :=
    h.bytes.save_withFiles h'.bytes h.fits hoffset fault
  refine ⟨disk', keyFile', ?_⟩
  rw [RetryClient.call, RetryClient.withFiles, hsave]
  rfl

theorem answersAlike_read (h : TracksRing client contents saved)
    (h' : TracksRing (client.withFiles disk keyFile) contents' saved) (budget : Nat) :
    AnswersAlike client (client.withFiles disk keyFile) (.read budget) := by
  obtain ⟨disk', keyFile', hread⟩ := h.bytes.read_withFiles h'.bytes budget
  refine ⟨disk', keyFile', ?_⟩
  rw [RetryClient.next, RetryClient.call, RetryClient.call, RetryClient.withFiles, hread]
  generalize client.file.read budget true = result
  obtain ⟨e | answer, hasInvalid, file⟩ := result
  · rfl
  · rfl

end AnswersAlike

/-! ## 5. Runs -/

namespace Alike

variable {client twin : RetryClient} {op : RetryOp}

theorem of_answersAlike {contents contents' : Bytes} {saved : List Bytes}
    (hanswers : AnswersAlike client twin op) (h : TracksRing (client.next op) contents saved)
    (h' : TracksRing (twin.next op) contents' saved) :
    (client.call op).2 = (twin.call op).2 ∧ Alike (client.next op) (twin.next op) := by
  obtain ⟨disk, keyFile, hcall⟩ := hanswers
  rw [RetryClient.next, hcall] at h'
  rw [hcall]
  refine ⟨rfl, ⟨disk, keyFile, ?_⟩, contents, contents', saved, h, ?_⟩
  · rw [RetryClient.next, hcall]
  · rw [RetryClient.next, hcall]
    exact h'

/-- One call, answered alike. -/
theorem call (h : Alike client twin) (hadmits : client.Admits op) :
    (client.call op).2 = (twin.call op).2 ∧ Alike (client.next op) (twin.next op) := by
  obtain ⟨disk, keyFile, rfl⟩ := h.files
  obtain ⟨contents, contents', saved, htracks, htracks'⟩ := h.tracked
  obtain ⟨hsize, hoffset⟩ := htracks.bytes.offset_lt hadmits.fileInRange
  cases op with
  | append elem =>
    have hfull := hadmits.2
    exact of_answersAlike (answersAlike_append client disk keyFile elem)
      (htracks.append hsize hfull) (htracks'.append hsize hfull)
  | save fault =>
    obtain ⟨_, _, hcall⟩ := answersAlike_save htracks htracks' hoffset fault
    have hreply := congrArg Prod.snd hcall
    by_cases hok : (client.file.save fault).1 = .ok ()
    · obtain ⟨_, hnext⟩ := htracks.save_ok hoffset hok
      obtain ⟨_, hnext'⟩ := htracks'.save_ok hoffset
        ((CircularFileReply.done.inj hreply).trans hok)
      exact of_answersAlike (answersAlike_save htracks htracks' hoffset fault) hnext hnext'
    · obtain ⟨_, hnext⟩ := htracks.save_failed hoffset hok
      obtain ⟨_, hnext'⟩ := htracks'.save_failed hoffset fun hok' =>
        hok ((CircularFileReply.done.inj hreply).symm.trans hok')
      exact of_answersAlike (answersAlike_save htracks htracks' hoffset fault) hnext hnext'
  | read budget =>
    exact of_answersAlike (answersAlike_read htracks htracks' budget) (htracks.read budget rfl)
      (htracks'.read budget rfl)
  | remove place =>
    obtain ⟨front, rest, hsaved, htoken⟩ := htracks.token_eq place
    exact of_answersAlike (answersAlike_remove client disk keyFile place)
      (htracks.remove hoffset hsaved htoken).2 (htracks'.remove hoffset hsaved htoken).2
  | purge =>
    exact of_answersAlike (answersAlike_purge client disk keyFile) htracks.purge.2
      htracks'.purge.2

end Alike

/-- Every call keeps the elements in the ring framed. -/
theorem TracksRing.call {client : RetryClient} {contents : Bytes} {saved : List Bytes}
    (h : TracksRing client contents saved) {op : RetryOp} (hadmits : client.Admits op) :
    ∃ contents' saved', TracksRing (client.next op) contents' saved' := by
  obtain ⟨contents', -, saved', hnext, -⟩ := (h.alike.call hadmits).2.tracked
  exact ⟨contents', saved', hnext⟩

/-- After a save that failed the client is as it was, but for its files. -/
theorem TracksRing.alike_failed {client : RetryClient} {contents : Bytes} {saved : List Bytes}
    (h : TracksRing client contents saved) (hoffset : client.file.head + client.file.size < 2 ^ 64)
    {fault : SaveFault} (hfailed : (client.file.save fault).1 ≠ .ok ()) :
    Alike (client.next (.save fault)) client := by
  obtain ⟨contents', hnext⟩ := h.save_failed hoffset hfailed
  obtain ⟨hmaxSize, hhead⟩ := client.file.save_ring fault
  have haccepted : (client.next (.save fault)).accepted = client.accepted := if_neg hfailed
  have hbuffer : (client.next (.save fault)).file.writeBuffer = client.file.writeBuffer := by
    rw [hnext.writeBuffer_eq, haccepted, h.writeBuffer_eq]
  have hsize : (client.next (.save fault)).file.size = client.file.size :=
    hnext.bytes.size_eq.trans h.bytes.size_eq.symm
  have hfile : client.file = (client.next (.save fault)).file.withFiles client.file.disk
      client.file.metadataKeyFile :=
    EmerCircularFile.eq_withFiles hbuffer.symm hmaxSize.symm hsize.symm hhead.symm
  refine ⟨⟨client.file.disk, client.file.metadataKeyFile, ?_⟩, contents', contents, saved, hnext, h⟩
  rw [RetryClient.withFiles, ← hfile, RetryClient.next, RetryClient.call, if_neg hfailed]

theorem TracksRing.saveHarmless {client : RetryClient} {contents : Bytes} {saved : List Bytes}
    (h : TracksRing client contents saved) {fault : SaveFault} {after : List RetryOp}
    (hops : EachStep RetryClient.next RetryClient.Admits client (.save fault :: after)) :
    client.SaveHarmless fault after := by
  obtain ⟨hadmits, hafter⟩ := (eachStep_cons _ _ client (.save fault) after).mp hops
  intro hfailed
  have hfails : (client.file.save fault).1 ≠ .ok () := fun hok =>
    hfailed (congrArg CircularFileReply.done hok)
  have halike := h.alike_failed (h.bytes.offset_lt hadmits.fileInRange).2 hfails
  exact (outputs_of_simulation (fun _ _ _ halike hadmits => halike.call hadmits) halike hafter).1

theorem TracksRing.saveAppends {client : RetryClient} {contents : Bytes} {saved : List Bytes}
    (h : TracksRing client contents saved) {fault : SaveFault}
    (hadmits : client.Admits (.save fault)) : client.SaveAppends fault := by
  intro hreply
  have hok := CircularFileReply.done.inj hreply
  obtain ⟨contents', hnext⟩ := h.save_ok (h.bytes.offset_lt hadmits.fileInRange).2 hok
  exact ⟨saved, h.bytes.contains, hnext.bytes.contains⟩

/-- **A save that fails changes no answer of what comes behind it, and the next one that succeeds
appends all that has been accepted, where no element that is accepted brings the write buffer to
`2^32` bytes.** -/
theorem failedSave_harmless_retryable {file : EmerCircularFile} {unsaved : List Bytes}
    (h : file.Intact unsaved) {ops before after : List RetryOp} {fault : SaveFault}
    (hops : EachStep RetryClient.next RetryClient.Admits ⟨⟨file, []⟩, unsaved⟩ ops)
    (hsplit : ops = before ++ .save fault :: after) :
    (run RetryClient.next ⟨⟨file, []⟩, unsaved⟩ before).SaveHarmless fault after ∧
      (run RetryClient.next ⟨⟨file, []⟩, unsaved⟩ before).SaveAppends fault := by
  obtain ⟨contents, saved, hbytes, hbuffer, hfits⟩ := h
  have hstart : TracksRing ⟨⟨file, []⟩, unsaved⟩ contents saved :=
    ⟨hbytes, hbuffer, hfits, fun token htoken => by cases htoken⟩
  rw [hsplit] at hops
  obtain ⟨hbefore, hrest⟩ := (eachStep_append _ _ _ before _).mp hops
  have hall := @throughout_of_step _ _ RetryClient.next RetryClient.Admits
    (fun client => ∃ contents saved, TracksRing client contents saved)
    (fun client op ⟨contents, saved, htracks⟩ hadmits => htracks.call hadmits) _ before
    ⟨contents, saved, hstart⟩ hbefore
  obtain ⟨contents', saved', hreached⟩ := hall.last
  exact ⟨hreached.saveHarmless hrest,
    hreached.saveAppends ((eachStep_cons _ _ _ (.save fault) after).mp hrest).1⟩

/-! ## 6. Runs with failing saves -/

/-- A fresh file, opened with the given maximum size. -/
def freshFile (maxSize : Nat) : EmerCircularFile :=
  ⟨⟨some [], .absent⟩, KeyFile.empty, [], maxSize, 0, 0⟩

theorem freshFile_intact {maxSize : Nat} (hpos : 1 ≤ maxSize) (hmaxSize : maxSize < 2 ^ 64) :
    (freshFile maxSize).Intact [] :=
  ⟨[], [], (holds_empty hpos hmaxSize (Nat.zero_le _)).holdsBytes, rfl, Nat.zero_le _⟩

/-- Saves that fail at every step, with the ring going round its end. -/
def failingRun : List RetryOp :=
  [.append [1, 2, 3], .save .openReadwrite, .save .none, .append [4, 5], .save (.writeTail 4),
    .read 3, .remove 0, .append [6, 7], .save (.writeStart 2), .save .metadata, .read 9,
    .save .none, .read 9]

theorem failedSave_harmless_retryable_failingRun :
    (run RetryClient.next ⟨⟨freshFile 24, []⟩, []⟩ (failingRun.take 8)).SaveHarmless
        (.writeStart 2) (failingRun.drop 9) ∧
      (run RetryClient.next ⟨⟨freshFile 24, []⟩, []⟩ (failingRun.take 8)).SaveAppends
        (.writeStart 2) := by
  have hops : EachStep RetryClient.next RetryClient.Admits ⟨⟨freshFile 24, []⟩, []⟩ failingRun := by
    decide
  exact failedSave_harmless_retryable (freshFile_intact (by decide) (by decide)) hops rfl

/-- An element of 4 GiB is accepted, but only its length gets into the write buffer. -/
theorem save_loses_long_element :
    (freshFile (2 ^ 33)).Intact [] ∧
      ¬ (run RetryClient.next ⟨⟨freshFile (2 ^ 33), []⟩, []⟩
        [.append (List.replicate (2 ^ 32) 0), .save .openReadwrite]).SaveAppends .none := by
  have hintact := @freshFile_intact (2 ^ 33) (by decide) (by decide)
  have hbytes := (@holds_empty [] .absent KeyFile.empty (2 ^ 33) (by decide) (by decide)
    (by decide)).holdsBytes
  have hlength : (List.replicate (2 ^ 32) (0 : UInt8)).length = 2 ^ 32 := List.length_replicate
  generalize List.replicate (2 ^ 32) (0 : UInt8) = elem at hlength ⊢
  refine ⟨hintact, fun hall => ?_⟩
  obtain ⟨file, hfile⟩ : ∃ file, file = { freshFile (2 ^ 33) with
    writeBuffer := toLittleEndian 8 elem.length } := ⟨_, rfl⟩
  have hbuffer : file.writeBuffer.length = 8 := by
    rw [hfile]
    exact length_toLittleEndian 8 _
  have hstored : HoldsBytes file [] [] := by
    rw [hfile]
    exact { hbytes with }
  have happend : (freshFile (2 ^ 33)).append elem = (true, file) := by
    -- of the element, 2^32 mod 2^32 bytes are appended
    have hnothing : ∀ array, gByteArrayAppend array elem = array := by
      intro array
      rw [gByteArrayAppend, hlength, Nat.mod_self, List.take_zero, List.append_nil]
    unfold EmerCircularFile.append
    rw [if_neg (by rw [hlength]; decide), hnothing,
      gByteArrayAppend_eq _ (by rw [length_toLittleEndian]; decide), hfile]
    rfl
  have hrefused : file.save .openReadwrite = (.error .failed, file) := by
    have hdata := hstored.dataFile
    unfold EmerCircularFile.save
    rw [if_neg (by omega), hdata]
    rfl
  have hreached : run RetryClient.next ⟨⟨freshFile (2 ^ 33), []⟩, []⟩
      [.append elem, .save .openReadwrite] = ⟨⟨file, []⟩, [elem]⟩ := by
    rw [run_cons, run_cons, run_nil, RetryClient.next, RetryClient.next, RetryClient.call, happend,
      RetryClient.call, hrefused]
    rfl
  have hmaxSize : file.maxSize = 2 ^ 33 := by rw [hfile]; rfl
  have hsize : file.size = 0 := hstored.size_eq
  have hhead : file.head = 0 := by rw [hfile]; rfl
  have hok : (file.save .none).1 = .ok () :=
    EmerCircularFile.save_none_ok (by omega) hstored.dataFile
  rw [hreached] at hall
  obtain ⟨elems, -, hring, -⟩ := hall (congrArg CircularFileReply.done hok)
  -- the ring has eight bytes, and the element alone has more
  obtain ⟨contents, ⟨-, -, hsaved⟩ | ⟨hreply, -⟩⟩ :=
    hstored.save_spec (by omega) (by omega) .none
  · have hframes := Except.ok.inj (hsaved.ringBytes_eq.symm.trans hring)
    have hlengths := congrArg List.length hframes
    rw [length_encode_snoc, List.nil_append] at hlengths
    omega
  · rw [hok] at hreply
    cases hreply

end EventRecorder
