import EventRecorder.CircularFile.Layout

/-!
# The metadata of a circular file and what every operation leaves

A key file describes a circular file when it has the metadata group with the file's maximum size,
size and head.  Below, each operation is stated once over the queue that the object holds.
-/

namespace EventRecorder

open Theory

/-! ## 1. Key files that describe a circular file -/

structure Describes (keyFile : KeyFile) (maxSize size head : Nat) : Prop where
  hasGroup : keyFile.hasGroup metadataGroupName = true
  maxSize_eq : keyFile.getUint64 metadataGroupName maxSizeKey = .ok maxSize
  size_eq : keyFile.getUint64 metadataGroupName sizeKey = .ok size
  head_eq : keyFile.getInt64 metadataGroupName headKey = .ok (head : Int)

variable {keyFile : KeyFile} {maxSize size head : Nat}

theorem getUint64_maxSize_setSize (newSize : Nat) :
    (keyFile.setUint64 metadataGroupName sizeKey newSize).getUint64 metadataGroupName maxSizeKey =
        .ok maxSize ↔
      keyFile.getUint64 metadataGroupName maxSizeKey = .ok maxSize :=
  KeyFile.getParsed_setValue_ne_eq_ok (by decide)

theorem getInt64_head_setSize (newSize : Nat) :
    (keyFile.setUint64 metadataGroupName sizeKey newSize).getInt64 metadataGroupName headKey =
        .ok (head : Int) ↔
      keyFile.getInt64 metadataGroupName headKey = .ok (head : Int) :=
  KeyFile.getParsed_setValue_ne_eq_ok (by decide)

/-- Writing the size alone leaves the key file describing the file only if its head was right. -/
theorem describes_setSize (hsize : size < 2 ^ 64) :
    Describes (keyFile.setUint64 metadataGroupName sizeKey size) maxSize size head ↔
      keyFile.getUint64 metadataGroupName maxSizeKey = .ok maxSize ∧
        keyFile.getInt64 metadataGroupName headKey = .ok (head : Int) := by
  constructor
  · intro h
    exact ⟨(getUint64_maxSize_setSize size).mp h.maxSize_eq,
      (getInt64_head_setSize size).mp h.head_eq⟩
  · rintro ⟨hmax, hhead⟩
    exact ⟨KeyFile.hasGroup_setValue _ _ _ _, (getUint64_maxSize_setSize size).mpr hmax,
      KeyFile.getUint64_setUint64 _ _ _ hsize, (getInt64_head_setSize size).mpr hhead⟩

theorem describes_setSizeHead (hmax : keyFile.getUint64 metadataGroupName maxSizeKey = .ok maxSize)
    (hsize : size < 2 ^ 64) (hhead : head < 2 ^ 63) :
    Describes ((keyFile.setUint64 metadataGroupName sizeKey size).setInt64
      metadataGroupName headKey head) maxSize size head := by
  refine ⟨KeyFile.hasGroup_setValue _ _ _ _, ?_, ?_, ?_⟩
  · exact (KeyFile.getParsed_setValue_ne_eq_ok (by decide)).mpr
      ((getUint64_maxSize_setSize size).mpr hmax)
  · exact (KeyFile.getParsed_setValue_ne_eq_ok (by decide)).mpr
      (KeyFile.getUint64_setUint64 _ _ _ hsize)
  · exact KeyFile.getInt64_setInt64 _ _ _ (by omega) (by omega)

/-- What describes a well-formed circular file passes the checks made when it is opened. -/
theorem parseMetadata_of_describes (h : Describes keyFile maxSize size head)
    (hsize : size ≤ maxSize) (hhead : head < maxSize) :
    EmerCircularFile.parseMetadata keyFile = .ok (maxSize, size, head) := by
  have hnegative : ¬ ((head : Int) < 0 ∨ (head : Int).toNat ≥ maxSize) := by omega
  simp only [EmerCircularFile.parseMetadata, h.maxSize_eq, h.size_eq, h.head_eq]
  rw [if_neg (show ¬ size > maxSize by omega), if_neg hnegative, Int.toNat_natCast]

/-! ## 2. Opening -/

/-- Opening a file that is described at the same maximum size takes over its size and head. -/
theorem new_of_describes {disk : CircularFileOnDisk} {contents : Bytes}
    (hdata : disk.dataFile = some contents) (hmetadata : disk.metadataFile = .parsed keyFile)
    (h : Describes keyFile maxSize size head) (hsize : size ≤ maxSize) (hhead : head < maxSize)
    (uninitialised : Nat → UInt8) :
    EmerCircularFile.new disk maxSize false uninitialised .none =
      (.ok { disk := disk, metadataKeyFile := keyFile, writeBuffer := [], maxSize := maxSize
             size := size, head := head }, disk) := by
  obtain ⟨dataFile, metadataFile⟩ := disk
  subst hdata hmetadata
  simp [EmerCircularFile.new, EmerCircularFile.initableInit, EmerCircularFile.loadMetadata,
    KeyFileOnDisk.load, h.hasGroup, parseMetadata_of_describes h hsize hhead,
    EmerCircularFile.resize]

/-- The metadata on disk as it is when a file is initialised afresh. -/
def NeedsInit (disk : CircularFileOnDisk) (reinitialized : Bool) : Prop :=
  reinitialized = true ∨ disk.metadataFile = .absent ∨
    ∃ contents, disk.metadataFile = .parsed contents ∧
      contents.hasGroup metadataGroupName = false

/-- Initialising writes an empty ring over whatever the data file holds. -/
theorem new_of_needsInit {disk : CircularFileOnDisk} {reinitialized : Bool}
    (h : NeedsInit disk reinitialized) (hmaxSize : maxSize < 2 ^ 64)
    (uninitialised : Nat → UInt8) :
    ∃ keyFile, Describes keyFile maxSize 0 0 ∧
      (EmerCircularFile.new disk maxSize reinitialized uninitialised .none).1 =
        .ok { disk := ⟨some (disk.dataFile.getD []), .parsed keyFile⟩
              metadataKeyFile := keyFile, writeBuffer := [], maxSize := maxSize
              size := 0, head := 0 } := by
  -- whichever way the metadata is missing, the group is set up from scratch
  have hload : ∃ loaded, ∀ self : EmerCircularFile, self.disk.metadataFile = disk.metadataFile →
      self.loadMetadata reinitialized = .ok (loaded, true) := by
    rcases h with rfl | habsent | ⟨contents, hparsed, hgroup⟩
    · exact ⟨KeyFile.empty, fun self _ => rfl⟩
    · refine ⟨KeyFile.empty, fun self hself => ?_⟩
      cases reinitialized <;>
        simp [EmerCircularFile.loadMetadata, hself, habsent, KeyFileOnDisk.load]
    · cases reinitialized with
      | true => exact ⟨KeyFile.empty, fun self _ => rfl⟩
      | false =>
        refine ⟨contents, fun self hself => ?_⟩
        simp [EmerCircularFile.loadMetadata, hself, hparsed, KeyFileOnDisk.load, hgroup]
  obtain ⟨loaded, hloaded⟩ := hload
  refine ⟨_, describes_setSizeHead
    (KeyFile.getUint64_setUint64 loaded metadataGroupName maxSizeKey hmaxSize)
    (by decide) (by decide), ?_⟩
  simp only [EmerCircularFile.new, EmerCircularFile.initableInit]
  rw [if_neg (by decide), hloaded _ rfl]
  rfl

/-! ## 3. What the operations do to the metadata -/

namespace EmerCircularFile

theorem addToSize_eq (self : EmerCircularFile) {delta : Nat} (hsum : self.size + delta < 2 ^ 64)
    (saved : Bool) :
    let keyFile := self.metadataKeyFile.setUint64 metadataGroupName sizeKey (self.size + delta)
    self.addToSize delta saved =
      if saved then
        (.ok (), { self with
          metadataKeyFile := keyFile, disk := { self.disk with metadataFile := .parsed keyFile }
          size := self.size + delta })
      else (.error .failed, { self with metadataKeyFile := keyFile }) := by
  rw [EmerCircularFile.addToSize, Nat.mod_eq_of_lt hsum]
  cases saved <;> rfl

theorem setMetadata_eq (self : EmerCircularFile) (size head : Nat) (saved : Bool) :
    let keyFile := (self.metadataKeyFile.setUint64 metadataGroupName sizeKey size).setInt64
      metadataGroupName headKey head
    self.setMetadata size head saved =
      if saved then
        (.ok (), { self with
          metadataKeyFile := keyFile, disk := { self.disk with metadataFile := .parsed keyFile }
          size := size, head := head })
      else (.error .failed, { self with metadataKeyFile := keyFile }) := by
  cases saved <;> rfl

/-- The ways in which a save can end. -/
inductive SaveOutcome (self : EmerCircularFile) (fault : SaveFault) :
    Except GError Unit × EmerCircularFile → Prop where
  | nothingToSave (hempty : self.writeBuffer.length = 0) : SaveOutcome self fault (.ok (), self)
  | notOpened (hne : self.writeBuffer.length ≠ 0)
      (hopen : self.disk.dataFile = none ∨ fault = .openReadwrite) :
      SaveOutcome self fault (.error .failed, self)
  | notWritten {contents contents' : Bytes} (hne : self.writeBuffer.length ≠ 0)
      (hdata : self.disk.dataFile = some contents)
      (hwritten : self.writeData contents fault = (false, contents')) :
      SaveOutcome self fault
        (.error .failed, { self with disk := { self.disk with dataFile := some contents' } })
  | sizeNotSaved {contents contents' : Bytes} (hne : self.writeBuffer.length ≠ 0)
      (hdata : self.disk.dataFile = some contents)
      (hwritten : self.writeData contents fault = (true, contents')) (hfault : fault = .metadata) :
      SaveOutcome self fault
        (.error .failed, { self with
          disk := { self.disk with dataFile := some contents' }
          metadataKeyFile := self.metadataKeyFile.setUint64 metadataGroupName sizeKey
            (self.size + self.writeBuffer.length) })
  | saved {contents contents' : Bytes} (hne : self.writeBuffer.length ≠ 0)
      (hdata : self.disk.dataFile = some contents)
      (hopen : fault ≠ .openReadwrite)
      (hwritten : self.writeData contents fault = (true, contents')) (hfault : fault ≠ .metadata)
      {keyFile : KeyFile}
      (hkeyFile : keyFile = self.metadataKeyFile.setUint64 metadataGroupName sizeKey
        (self.size + self.writeBuffer.length)) :
      SaveOutcome self fault
        (.ok (), { self with
          disk := ⟨some contents', .parsed keyFile⟩, metadataKeyFile := keyFile
          writeBuffer := [], size := self.size + self.writeBuffer.length })

theorem save_outcome (self : EmerCircularFile)
    (hsum : self.size + self.writeBuffer.length < 2 ^ 64) (fault : SaveFault) :
    SaveOutcome self fault (self.save fault) := by
  rw [save]
  split
  · rename_i hempty
    exact .nothingToSave hempty
  rename_i hne
  split
  · rename_i hdata
    exact .notOpened hne (.inl hdata)
  rename_i contents hdata
  split
  · rename_i hopen
    exact .notOpened hne (.inr hopen)
  rename_i hopen
  split
  · rename_i hwritten
    exact .notWritten hne hdata hwritten
  · rename_i contents' hwritten
    simp only
    rw [addToSize_eq _ (by show self.size + self.writeBuffer.length < 2 ^ 64; exact hsum)]
    by_cases hfault : fault = .metadata
    · rw [if_neg (by simp [hfault])]
      exact .sizeNotSaved hne hdata hwritten hfault
    · rw [if_pos (by simp [hfault])]
      exact .saved hne hdata hopen hwritten hfault rfl

/-- The failing operation is one that a save would perform. -/
def SaveFails (self : EmerCircularFile) (fault : SaveFault) : Prop :=
  self.writeBuffer.length ≠ 0 ∧
    match fault with
    | .none => False
    | .seekStart => self.bytesTail < self.writeBuffer.length
    | .writeStart _ => self.bytesTail < self.writeBuffer.length
    | _ => True

instance (self : EmerCircularFile) : ∀ fault, Decidable (self.SaveFails fault)
  | .none => isFalse fun h => h.2
  | .seekStart => inferInstanceAs (Decidable (_ ∧ _ < _))
  | .writeStart _ => inferInstanceAs (Decidable (_ ∧ _ < _))
  | .openReadwrite => inferInstanceAs (Decidable (_ ∧ True))
  | .seekTail => inferInstanceAs (Decidable (_ ∧ True))
  | .writeTail _ => inferInstanceAs (Decidable (_ ∧ True))
  | .metadata => inferInstanceAs (Decidable (_ ∧ True))

theorem writeData_eq_true_iff (self : EmerCircularFile) (contents : Bytes) (fault : SaveFault) :
    (self.writeData contents fault).1 = true ↔
      match fault with
      | .seekStart => ¬ self.bytesTail < self.writeBuffer.length
      | .writeStart _ => ¬ self.bytesTail < self.writeBuffer.length
      | .seekTail => False
      | .writeTail _ => False
      | _ => True := by
  simp only [writeData, writeAtStart, writeAtTail, gt_iff_lt, Nat.sub_pos_iff_lt]
  -- the write at the start only takes place when something goes round
  by_cases hround : self.bytesTail < self.writeBuffer.length
  · cases fault <;> simp [hround]
  · cases fault <;> simp [hround]

/-- A save succeeds unless one of its operations fails. -/
theorem save_ok_iff {self : EmerCircularFile} {contents : Bytes}
    (hsum : self.size + self.writeBuffer.length < 2 ^ 64)
    (hdata : self.disk.dataFile = some contents) (fault : SaveFault) :
    (self.save fault).1 = .ok () ↔ ¬ self.SaveFails fault := by
  have houtcome := self.save_outcome hsum fault
  generalize self.save fault = result at houtcome ⊢
  -- each way to end names the operation that failed, and the save gets to it
  cases houtcome with
  | nothingToSave hempty => simp [SaveFails, hempty]
  | notOpened hne hopen =>
    rcases hopen with hnone | rfl
    · simp [hdata] at hnone
    · simp [SaveFails, hne]
  | @notWritten contents₀ contents' hne hdata₀ hwritten =>
    have hdone := self.writeData_eq_true_iff contents₀ fault
    rw [hwritten] at hdone
    cases fault <;> simp_all [SaveFails]
  | sizeNotSaved hne hdata₀ hwritten hfault => simp [SaveFails, hne, hfault]
  | @saved contents₀ contents' hne hdata₀ hopen hwritten hfault =>
    have hdone := self.writeData_eq_true_iff contents₀ fault
    rw [hwritten] at hdone
    cases fault <;> simp_all [SaveFails]

theorem save_none_ok {self : EmerCircularFile} {contents : Bytes}
    (hsum : self.size + self.writeBuffer.length < 2 ^ 64)
    (hdata : self.disk.dataFile = some contents) : (self.save .none).1 = .ok () :=
  (save_ok_iff hsum hdata .none).mpr fun hfails => hfails.2

theorem setMetadata_maxSize (self : EmerCircularFile) (size head : Nat) (saved : Bool) :
    (self.setMetadata size head saved).2.maxSize = self.maxSize := by
  cases saved <;> rfl

theorem append_maxSize (self : EmerCircularFile) (elem : Bytes) :
    (self.append elem).2.maxSize = self.maxSize := by
  rw [append]
  split <;> rfl

theorem append_head (self : EmerCircularFile) (elem : Bytes) :
    (self.append elem).2.head = self.head := by
  rw [append]
  split <;> rfl

theorem append_size (self : EmerCircularFile) (elem : Bytes) :
    (self.append elem).2.size = self.size := by
  rw [append]
  split <;> rfl

theorem append_disk (self : EmerCircularFile) (elem : Bytes) :
    (self.append elem).2.disk = self.disk := by
  rw [append]
  split <;> rfl

/-- A save does not move the head, and leaves the maximum size alone. -/
theorem save_ring (self : EmerCircularFile) (fault : SaveFault) :
    (self.save fault).2.maxSize = self.maxSize ∧ (self.save fault).2.head = self.head := by
  have hadd : ∀ file : EmerCircularFile, ∀ delta saved,
      (file.addToSize delta saved).2.maxSize = file.maxSize ∧
        (file.addToSize delta saved).2.head = file.head := by
    intro file delta saved
    cases saved <;> exact ⟨rfl, rfl⟩
  rw [save]
  split
  · exact ⟨rfl, rfl⟩
  split
  · exact ⟨rfl, rfl⟩
  split
  · exact ⟨rfl, rfl⟩
  split
  · exact ⟨rfl, rfl⟩
  · rename_i contents _
    have := hadd { self with disk := { self.disk with dataFile := some contents } }
      self.writeBuffer.length (fault ≠ .metadata)
    simp only
    split <;> simp_all

theorem save_maxSize (self : EmerCircularFile) (fault : SaveFault) :
    (self.save fault).2.maxSize = self.maxSize :=
  (self.save_ring fault).1

theorem remove_maxSize (self : EmerCircularFile) (token : Nat) (saved : Bool) :
    (self.remove token saved).2.maxSize = self.maxSize := by
  rw [remove]
  split
  · rfl
  · exact self.setMetadata_maxSize _ _ saved

theorem purge_maxSize (self : EmerCircularFile) (saved : Bool) :
    (self.purge saved).2.maxSize = self.maxSize := by
  rw [purge]
  split
  · rfl
  · exact self.setMetadata_maxSize 0 0 saved

theorem remove_writeBuffer (self : EmerCircularFile) (token : Nat) (saved : Bool) :
    (self.remove token saved).2.writeBuffer = self.writeBuffer := by
  rw [remove]
  split
  · rfl
  · cases saved <;> rfl

theorem purge_writeBuffer (self : EmerCircularFile) (saved : Bool) :
    (self.purge saved).2.writeBuffer = self.writeBuffer := by
  rw [purge]
  split
  · rfl
  · cases saved <;> rfl

/-- The metadata file agrees with the key file in memory, and both describe the object. -/
structure Synced (file : EmerCircularFile) : Prop where
  onDisk : file.disk.metadataFile = .parsed file.metadataKeyFile
  describes : Describes file.metadataKeyFile file.maxSize file.size file.head

variable {self : EmerCircularFile}

theorem Synced.setMetadata (h : Synced self) {size head : Nat} (hsize : size < 2 ^ 64)
    (hhead : head < 2 ^ 63) : Synced (self.setMetadata size head true).2 :=
  ⟨rfl, describes_setSizeHead h.describes.maxSize_eq hsize hhead⟩

theorem Synced.remove (h : Synced self) {token : Nat} (hoffset : self.head + token < 2 ^ 63) :
    Synced (self.remove token true).2 := by
  rw [EmerCircularFile.remove]
  split
  · exact h
  · refine h.setMetadata (Nat.mod_lt _ (by decide)) ?_
    have := Nat.mod_le ((self.head + token) % 2 ^ 64) self.maxSize
    omega

/-- The new head is below the maximum size, however far the sum with the token goes. -/
theorem Synced.remove_below (h : Synced self) (hpos : 0 < self.maxSize)
    (hmaxSize : self.maxSize < 2 ^ 63) (token : Nat) : Synced (self.remove token true).2 := by
  rw [EmerCircularFile.remove]
  split
  · exact h
  · exact h.setMetadata (Nat.mod_lt _ (by decide)) ((Nat.mod_lt _ hpos).trans hmaxSize)

theorem Synced.purge (h : Synced self) : Synced (self.purge true).2 := by
  rw [EmerCircularFile.purge]
  split
  · exact h
  · exact h.setMetadata (by decide) (by decide)

theorem Synced.save (h : Synced self) (hsum : self.size + self.writeBuffer.length < 2 ^ 64) :
    Synced (self.save .none).2 := by
  have houtcome := self.save_outcome hsum .none
  generalize self.save .none = result at houtcome ⊢
  cases houtcome with
  | nothingToSave => exact h
  | notOpened => exact h
  | notWritten => exact ⟨h.onDisk, h.describes⟩
  | sizeNotSaved hne hdata hwritten hfault => cases hfault
  | saved hne hdata hopen hwritten hfault hkeyFile =>
    subst hkeyFile
    exact ⟨rfl, (describes_setSize hsum).mpr ⟨h.describes.maxSize_eq, h.describes.head_eq⟩⟩

theorem Synced.append (h : Synced self) (elem : Bytes) : Synced (self.append elem).2 := by
  rw [EmerCircularFile.append]
  split
  · exact h
  · exact ⟨h.onDisk, h.describes⟩

end EmerCircularFile

/-! ## 4. Operations on the bytes held -/

namespace HoldsBytes

variable {self : EmerCircularFile} {contents stored : Bytes}

/-- Metadata that fails to be written changes the key file in memory and nothing else. -/
theorem withKeyFile (h : HoldsBytes self contents stored) (keyFile : KeyFile) :
    HoldsBytes { self with metadataKeyFile := keyFile } contents stored :=
  { h with }

/-- A save moves the write buffer behind the bytes stored, or leaves both as they were. -/
theorem save_spec (h : HoldsBytes self contents stored)
    (hfits : self.size + self.writeBuffer.length ≤ self.maxSize)
    (hoffset : self.head + self.size < 2 ^ 64) (fault : SaveFault) :
    ∃ contents',
      (self.save fault).1 = .ok () ∧ (self.save fault).2.writeBuffer = [] ∧
          HoldsBytes (self.save fault).2 contents' (stored ++ self.writeBuffer) ∨
        (self.save fault).1 = .error .failed ∧
          (self.save fault).2.writeBuffer = self.writeBuffer ∧
          HoldsBytes (self.save fault).2 contents' stored := by
  have hmaxSize := h.maxSize_lt
  have houtcome := self.save_outcome (by omega) fault
  generalize self.save fault = result at houtcome ⊢
  cases houtcome with
  | nothingToSave hempty =>
    have hbuffer : self.writeBuffer = [] := List.length_eq_zero_iff.mp hempty
    exact ⟨contents, .inl ⟨rfl, hbuffer, by rwa [hbuffer, List.append_nil]⟩⟩
  | notOpened => exact ⟨contents, .inr ⟨rfl, rfl, h⟩⟩
  -- what was written half-way lies in the free part of the ring
  | @notWritten contents₀ contents' hne hdata hwritten =>
    obtain rfl : contents₀ = contents := Option.some.inj (hdata.symm.trans h.dataFile)
    have hstored := h.writeData_stored hfits hoffset fault
    rw [hwritten] at hstored
    exact ⟨contents', .inr ⟨rfl, rfl, h.withContents hstored⟩⟩
  | @sizeNotSaved contents₀ contents' hne hdata hwritten hfault =>
    obtain rfl : contents₀ = contents := Option.some.inj (hdata.symm.trans h.dataFile)
    have hstored := h.writeData_stored hfits hoffset fault
    rw [hwritten] at hstored
    exact ⟨contents', .inr ⟨rfl, rfl, (h.withContents hstored).withKeyFile _⟩⟩
  | @saved contents₀ contents' hne hdata hopen hwritten hfault =>
    obtain rfl : contents₀ = contents := Option.some.inj (hdata.symm.trans h.dataFile)
    have hsize : self.size + self.writeBuffer.length = (stored ++ self.writeBuffer).length := by
      rw [List.length_append, h.size_eq]
    exact ⟨contents', .inl ⟨rfl, rfl, ⟨rfl, hmaxSize, hsize, hfits, h.head_lt,
      h.writeData_stored_behind hfits hoffset hwritten⟩⟩⟩

/-- Removing what is in front. -/
theorem remove_spec {front rest : Bytes} (h : HoldsBytes self contents (front ++ rest))
    (hoffset : self.head + front.length < 2 ^ 64) (saved : Bool) :
    (self.remove front.length saved).1 = .ok () ∧
        HoldsBytes (self.remove front.length saved).2 contents rest ∨
      (self.remove front.length saved).1 = .error .failed ∧ saved = false ∧
        HoldsBytes (self.remove front.length saved).2 contents (front ++ rest) := by
  have hmaxSize := h.maxSize_lt
  have hsize := h.size_eq
  have hle := h.size_le
  have hhead := h.head_lt
  have hring := ringHolds_append.mp h.stored.ring
  have hfilled := h.stored.filled
  rw [List.length_append] at hsize hfilled
  rw [EmerCircularFile.remove]
  split
  · rename_i hzero
    have hfront : front = [] := List.length_eq_zero_iff.mp hzero
    rw [hfront, List.nil_append] at h
    exact .inl ⟨rfl, h⟩
  -- the unsigned differences and sums of the code stay in range
  · rw [show (self.size + (2 ^ 64 - front.length)) % 2 ^ 64 = rest.length by omega,
      Nat.mod_eq_of_lt hoffset]
    cases saved with
    | false => exact .inr ⟨rfl, rfl, h.withKeyFile _⟩
    | true =>
      have hmod : (self.head + front.length) % self.maxSize ≤ self.head + front.length :=
        Nat.mod_le _ _
      refine .inl ⟨rfl, h.dataFile, hmaxSize, rfl, ?_, Nat.mod_lt _ (by omega),
        h.stored.physical, (ringHolds_congr (Nat.mod_mod _ _).symm).mp hring.2, ?_⟩
      · show rest.length ≤ self.maxSize
        omega
      · show (self.head + front.length) % self.maxSize + rest.length ≤ contents.length ∨
          contents.length = self.maxSize
        omega

/-- Cutting off what is behind. -/
theorem cut_off {front rest : Bytes} (h : HoldsBytes self contents (front ++ rest)) :
    HoldsBytes (self.setMetadata front.length self.head true).2 contents front := by
  have hsize := h.size_eq
  have hle := h.size_le
  have hfilled := h.stored.filled
  rw [List.length_append] at hsize hfilled
  refine ⟨h.dataFile, h.maxSize_lt, rfl, ?_, h.head_lt, h.stored.physical,
    (ringHolds_append.mp h.stored.ring).1, ?_⟩
  · show front.length ≤ self.maxSize
    omega
  · show self.head + front.length ≤ contents.length ∨ contents.length = self.maxSize
    omega

theorem purge_spec (h : HoldsBytes self contents stored) (saved : Bool) :
    (self.purge saved).1 = .ok () ∧ HoldsBytes (self.purge saved).2 contents [] ∨
      (self.purge saved).1 = .error .failed ∧ saved = false ∧
        HoldsBytes (self.purge saved).2 contents stored := by
  have hhead := h.head_lt
  rw [EmerCircularFile.purge]
  split
  · rename_i hzero
    have hstored : stored = [] := List.length_eq_zero_iff.mp (by rw [← h.size_eq, hzero])
    rw [hstored] at h
    exact .inl ⟨rfl, h⟩
  · cases saved with
    | false => exact .inr ⟨rfl, rfl, h.withKeyFile _⟩
    | true =>
      exact .inl ⟨rfl, h.dataFile, h.maxSize_lt, rfl, Nat.zero_le _,
        (by show 0 < self.maxSize; omega), h.stored.physical, ringHolds_nil _ _ _,
        .inl (Nat.zero_le _)⟩

end HoldsBytes

/-! ## 5. Operations on the queue held -/

namespace Holds

variable {self : EmerCircularFile} {contents : Bytes} {q : Fifo Bytes}

/-- A save moves the unsaved elements behind the saved ones, or leaves the queue as it was. -/
theorem save_spec (h : Holds self contents q) (hoffset : self.head + self.size < 2 ^ 64)
    (fault : SaveFault) :
    ∃ contents',
      (self.save fault).1 = .ok () ∧ Holds (self.save fault).2 contents' q.save ∨
      (self.save fault).1 = .error .failed ∧ Holds (self.save fault).2 contents' q := by
  have hmaxSize := self.save_maxSize fault
  obtain ⟨contents', ⟨hreply, hbuffer, hnext⟩ | ⟨hreply, hbuffer, hnext⟩⟩ :=
    h.holdsBytes.save_spec h.fits hoffset fault
  · rw [h.writeBuffer_eq, ← encode_append] at hnext
    have hsaved : ∀ elem ∈ q.save.saved ++ q.save.unsaved, elem ≠ [] := fun elem he =>
      h.nonempty elem (by rwa [Fifo.save, List.append_nil] at he)
    refine ⟨contents', .inl ⟨hreply, ofBytes hnext hbuffer ?_ hsaved⟩⟩
    rw [hbuffer]
    exact hnext.size_le
  · have hsize := hnext.size_eq.trans h.size_eq.symm
    refine ⟨contents', .inr ⟨hreply, ofBytes hnext (hbuffer.trans h.writeBuffer_eq) ?_ h.nonempty⟩⟩
    rw [hbuffer, hsize, hmaxSize]
    exact h.fits

/-- The size is the token of the first `n` elements and the frames of the others. -/
theorem size_split (h : Holds self contents q) (n : Nat) :
    self.size = (encode (q.saved.take n)).length + (encode (q.saved.drop n)).length := by
  rw [h.size_eq, ← List.length_append, ← encode_append, List.take_append_drop]

/-- Removing the first `n` elements by their token. -/
theorem remove_spec (h : Holds self contents q) {n : Nat}
    (hoffset : self.head + (encode (q.saved.take n)).length < 2 ^ 64) (saved : Bool) :
    (self.remove (encode (q.saved.take n)).length saved).1 = .ok () ∧
        Holds (self.remove (encode (q.saved.take n)).length saved).2 contents (q.remove n) ∨
      (self.remove (encode (q.saved.take n)).length saved).1 = .error .failed ∧ saved = false ∧
        Holds (self.remove (encode (q.saved.take n)).length saved).2 contents q := by
  have hfits := h.fits
  have hmaxSize := self.remove_maxSize (encode (q.saved.take n)).length saved
  have hbuffer := self.remove_writeBuffer (encode (q.saved.take n)).length saved
  have hsize := h.size_split n
  have hbytes := h.holdsBytes
  rw [← List.take_append_drop n q.saved, encode_append] at hbytes
  rcases hbytes.remove_spec hoffset saved with ⟨hreply, hnext⟩ | ⟨hreply, hfailed, hnext⟩
  · have hkept : ∀ elem ∈ (q.remove n).saved ++ (q.remove n).unsaved, elem ≠ [] := by
      intro elem he
      rw [Fifo.remove, List.mem_append] at he
      exact h.nonempty elem (List.mem_append.mpr (he.imp List.mem_of_mem_drop id))
    have hsize' := hnext.size_eq
    refine .inl ⟨hreply, ofBytes hnext (hbuffer.trans h.writeBuffer_eq) ?_ hkept⟩
    rw [hbuffer, hmaxSize]
    omega
  · rw [← encode_append, List.take_append_drop] at hnext
    have hsize' := hnext.size_eq
    refine .inr ⟨hreply, hfailed, ofBytes hnext (hbuffer.trans h.writeBuffer_eq) ?_ h.nonempty⟩
    rw [hbuffer, hmaxSize, hsize', ← h.size_eq]
    exact hfits

/-- Removing the first `n` elements where the metadata can be written. -/
theorem remove_saved (h : Holds self contents q) (hmaxSize : self.maxSize ≤ 2 ^ 63) (n : Nat) :
    Holds (self.remove (encode (q.saved.take n)).length true).2 contents (q.remove n) := by
  have hsplit := h.size_split n
  have hfits := h.fits
  have hhead := h.head_lt
  rcases h.remove_spec (n := n) (by omega) true with ⟨-, hremoved⟩ | ⟨-, hfailed, -⟩
  · exact hremoved
  · cases hfailed

theorem purge_spec (h : Holds self contents q) (saved : Bool) :
    (self.purge saved).1 = .ok () ∧ Holds (self.purge saved).2 contents q.purge ∨
      (self.purge saved).1 = .error .failed ∧ saved = false ∧
        Holds (self.purge saved).2 contents q := by
  have hfits := h.fits
  have hmaxSize := self.purge_maxSize saved
  have hbuffer := self.purge_writeBuffer saved
  rcases h.holdsBytes.purge_spec saved with ⟨hreply, hnext⟩ | ⟨hreply, hfailed, hnext⟩
  · have hkept : ∀ elem ∈ q.purge.saved ++ q.purge.unsaved, elem ≠ [] := fun elem he =>
      h.nonempty elem (List.mem_append_right _ he)
    have hsize : (self.purge saved).2.size = 0 := hnext.size_eq
    refine .inl ⟨hreply, ofBytes hnext (hbuffer.trans h.writeBuffer_eq) ?_ hkept⟩
    rw [hbuffer, hmaxSize, hsize]
    omega
  · refine .inr ⟨hreply, hfailed, ofBytes hnext (hbuffer.trans h.writeBuffer_eq) ?_ h.nonempty⟩
    rw [hbuffer, hmaxSize, hnext.size_eq, ← h.size_eq]
    exact hfits

/-- The token of the first `n` elements tells whether there are more. -/
theorem hasMore_eq (h : Holds self contents q) (n : Nat) :
    self.hasMore (encode (q.saved.take n)).length = q.hasMore n := by
  have hsplit := h.size_split n
  -- elements left over take at least their eight bytes of length
  have hrest : (encode (q.saved.drop n)).length = 0 ↔ q.saved.length ≤ n := by
    rw [length_encode_eq_zero, List.drop_eq_nil_iff]
  rw [EmerCircularFile.hasMore, Fifo.hasMore, decide_eq_decide]
  omega

end Holds

end EventRecorder
