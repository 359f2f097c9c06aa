import EventRecorder.Theory.Frame
import EventRecorder.Theory.KeyFile
import EventRecorder.Theory.Ring

/-!
# The circular file

A data file used as a ring of length-prefixed elements beside a metadata file with its maximum size,
its size and its head.  Sizes are `guint64`: the sums that the code does not bound are taken modulo
`2^64`.  A head is kept as a natural number, which a `goffset` agrees with below `2^63`.

Every function that touches a file takes a parameter that says which of its file operations fails.
-/

namespace EventRecorder

open Theory

/-- The `GError`s that reach the callers of a circular file. -/
inductive GError where
  /-- A file operation failed. -/
  | failed
  | load (error : LoadError)
  | keyFile (code : KeyFileError)
  /-- `G_IO_ERROR_INVALID_DATA` with its message. -/
  | invalidData (message : String)
  /-- No error of the source: the loop goes on for ever and the call does not return. -/
  | hangs
  /-- No error of the source either: `g_error` ends the process. -/
  | aborts
  deriving DecidableEq, Repr

def metadataGroupName : String := "metadata"
def maxSizeKey : String := "max_size"
def sizeKey : String := "size"
def headKey : String := "head"

/-- `sizeof (guint64)`. -/
def sizeofElemSize : Nat := 8

/-- The two files at the path of a circular file. -/
structure CircularFileOnDisk where
  dataFile : Option Bytes
  metadataFile : KeyFileOnDisk

structure EmerCircularFile where
  disk : CircularFileOnDisk
  metadataKeyFile : KeyFile
  writeBuffer : Bytes
  maxSize : Nat
  size : Nat
  head : Nat

/-- The operation that fails in `emer_circular_file_save`, if any.  A failing write has written some
number of bytes before. -/
inductive SaveFault where
  | none
  | openReadwrite
  | seekStart
  | writeStart (written : Nat)
  | seekTail
  | writeTail (written : Nat)
  | metadata
  deriving DecidableEq, Repr

/-- The operation that fails while a circular file is opened, if any. -/
inductive InitFault where
  | none
  | appendTo
  | readData
  | metadata
  | replaceContents
  | addToSize
  deriving DecidableEq, Repr

/-! ## 1. Streams and buffers -/

structure FileInputStream where
  contents : Bytes
  position : Nat

/-- `g_input_stream_read_all`: fewer bytes than asked for only at the end of the file. -/
def FileInputStream.readAll (stream : FileInputStream) (count : Nat) : Bytes × FileInputStream :=
  let bytes := (stream.contents.drop stream.position).take count
  (bytes, { stream with position := stream.position + bytes.length })

def FileInputStream.seek (stream : FileInputStream) (position : Nat) : FileInputStream :=
  { stream with position := position }

/-- `g_byte_array_append` takes the length as a `guint`. -/
def gByteArrayAppend (array data : Bytes) : Bytes :=
  array ++ data.take (data.length % 2 ^ 32)

namespace EmerCircularFile

/-! ## 2. Metadata -/

def saveMetadataFile (self : EmerCircularFile) (saved : Bool) :
    Except GError Unit × EmerCircularFile :=
  if saved then
    (.ok (), { self with disk := { self.disk with metadataFile := .parsed self.metadataKeyFile } })
  else (.error .failed, self)

def addToSize (self : EmerCircularFile) (delta : Nat) (saved : Bool) :
    Except GError Unit × EmerCircularFile :=
  let newSize := (self.size + delta) % 2 ^ 64
  let self :=
    { self with
      metadataKeyFile := self.metadataKeyFile.setUint64 metadataGroupName sizeKey newSize }
  match self.saveMetadataFile saved with
  -- the new size stays in the key file although it was not saved
  | (.error e, self) => (.error e, self)
  | (.ok (), self) => (.ok (), { self with size := newSize })

def setMetadata (self : EmerCircularFile) (size head : Nat) (saved : Bool) :
    Except GError Unit × EmerCircularFile :=
  let self :=
    { self with
      metadataKeyFile := (self.metadataKeyFile.setUint64 metadataGroupName sizeKey size).setInt64
        metadataGroupName headKey head }
  match self.saveMetadataFile saved with
  -- so do the new size and the new head
  | (.error e, self) => (.error e, self)
  | (.ok (), self) => (.ok (), { self with size := size, head := head })

/-! ## 3. Opening and resizing -/

/-- Fills the buffer as far as the data file goes; the rest of it keeps what it held. -/
def readDiskBytes (self : EmerCircularFile) (buffer : Bytes) (numBytes maxSize : Nat)
    (read : Bool) : Except GError Bytes :=
  if numBytes = 0 then .ok buffer
  else
    match self.disk.dataFile, read with
    | some contents, true =>
      let headToEnd := maxSize - self.head
      let bytesHead := min numBytes headToEnd
      let bytesStart := numBytes - bytesHead
      -- what has gone round to the start of the file belongs behind the rest
      let fromStart := (FileInputStream.readAll ⟨contents, 0⟩ bytesStart).1
      let fromHead := (FileInputStream.readAll ⟨contents, self.head⟩ bytesHead).1
      .ok (writeAt 0 (writeAt 0 buffer bytesHead fromStart) 0 fromHead)
    | _, _ => .error .failed

/-- The length read from a buffer at a position. -/
def elemSizeAt (buffer : Bytes) (position : Nat) : Nat :=
  ofLittleEndian ((buffer.drop position).take sizeofElemSize)

/-- The loop of `get_trimmed_size`, which has no result when it does not end within the fuel. -/
def trimmedSizeFrom (buffer : Bytes) (numBytes : Nat) : Nat → Nat → Option Nat
  | 0, _ => none
  | fuel + 1, currPos =>
    if currPos + sizeofElemSize < numBytes then
      let nextPos := (currPos + sizeofElemSize + elemSizeAt buffer currPos) % 2 ^ 64
      -- the last element was cut off by the new maximum size
      if nextPos > numBytes then some currPos
      else trimmedSizeFrom buffer numBytes fuel nextPos
    else some currPos

/-- A position that the loop comes back to recurs for ever, so as many rounds as there are positions
are enough to tell. -/
def getTrimmedSize (buffer : Bytes) (numBytes : Nat) : Option Nat :=
  trimmedSizeFrom buffer numBytes (numBytes + 1) 0

/-- Puts the maximum size into the key file when asked to. -/
def setMaxSizeKey (self : EmerCircularFile) (wanted : Bool) : EmerCircularFile :=
  { self with
    metadataKeyFile :=
      if wanted then self.metadataKeyFile.setUint64 metadataGroupName maxSizeKey self.maxSize
      else self.metadataKeyFile }

/-- The data file may never be longer than the maximum size on disk, so that a larger maximum is
recorded before the data file is replaced and a smaller one afterwards. -/
def overwrite (self : EmerCircularFile) (buffer : Bytes) (prevMaxSize : Nat) (fault : InitFault) :
    Except GError Unit × EmerCircularFile :=
  match (self.setMaxSizeKey (self.maxSize > prevMaxSize)).setMetadata 0 0 (fault ≠ .metadata) with
  | (.error e, self) => (.error e, self)
  | (.ok (), self) =>
    -- the file is logically empty by now
    if fault = .replaceContents then (.error .failed, self)
    else
      let self := { self with disk := { self.disk with dataFile := some buffer } }
      (self.setMaxSizeKey (self.maxSize < prevMaxSize)).addToSize buffer.length
        (fault ≠ .addToSize)

/-- `uninitialised` is what the buffer on the stack holds before the data file is read into it.
That the stack has room for it is not modelled. -/
def resize (self : EmerCircularFile) (prevMaxSize : Nat) (uninitialised : Nat → UInt8)
    (fault : InitFault) : Except GError Unit × EmerCircularFile :=
  if prevMaxSize = self.maxSize then (.ok (), self)
  else
    let bytesToRead := min self.size self.maxSize
    let buffer := (List.range bytesToRead).map uninitialised
    match self.readDiskBytes buffer bytesToRead prevMaxSize (fault ≠ .readData) with
    | .error e => (.error e, self)
    | .ok buffer =>
      match getTrimmedSize buffer bytesToRead with
      | none => (.error .hangs, self)
      | some newSize => self.overwrite (buffer.take newSize) prevMaxSize fault

/-- The metadata key file that was loaded, with whether the file is to be initialised afresh. -/
def loadMetadata (self : EmerCircularFile) (reinitialized : Bool) :
    Except GError (KeyFile × Bool) :=
  if reinitialized then .ok (KeyFile.empty, true)
  else
    match self.disk.metadataFile.load with
    | .error .noent => .ok (KeyFile.empty, true)
    | .error e => .error (.load e)
    -- a file without the group is what a crash after its creation leaves
    | .ok contents => .ok (contents, !contents.hasGroup metadataGroupName)

/-- The checked metadata of an existing file: its previous maximum size, its size and its head. -/
def parseMetadata (keyFile : KeyFile) : Except GError (Nat × Nat × Nat) :=
  match keyFile.getUint64 metadataGroupName maxSizeKey with
  | .error e => .error (.keyFile e)
  | .ok prevMaxSize =>
    match keyFile.getUint64 metadataGroupName sizeKey with
    | .error e => .error (.keyFile e)
    | .ok size =>
      if size > prevMaxSize then
        .error (.invalidData ("Logical size of circular file must be at most " ++
          toString prevMaxSize ++ ", but was " ++ toString size ++ "."))
      else
        match keyFile.getInt64 metadataGroupName headKey with
        | .error e => .error (.keyFile e)
        | .ok head =>
          if head < 0 ∨ head.toNat ≥ prevMaxSize then
            .error (.invalidData ("Pointer to head of circular file must lie in range [0, " ++
              toString prevMaxSize ++ "), but was " ++ toString head ++ "."))
          else .ok (prevMaxSize, size, head.toNat)

def initableInit (self : EmerCircularFile) (reinitialized : Bool) (uninitialised : Nat → UInt8)
    (fault : InitFault) : Except GError Unit × EmerCircularFile :=
  if fault = .appendTo then (.error .failed, self)
  else
    -- opening for appending creates the data file
    let self :=
      { self with disk := { self.disk with dataFile := some (self.disk.dataFile.getD []) } }
    match self.loadMetadata reinitialized with
    | .error e => (.error e, self)
    | .ok (keyFile, true) =>
      let self := { self with metadataKeyFile := keyFile }
      -- the data file keeps its old contents and its old length
      (self.setMaxSizeKey true).setMetadata 0 0 (fault ≠ .metadata)
    | .ok (keyFile, false) =>
      let self := { self with metadataKeyFile := keyFile }
      match parseMetadata keyFile with
      | .error e => (.error e, self)
      | .ok (prevMaxSize, size, head) =>
        { self with size := size, head := head }.resize prevMaxSize uninitialised fault

/-- `emer_circular_file_new`: the object, unless opening fails, and the files it leaves. -/
def new (disk : CircularFileOnDisk) (maxSize : Nat) (reinitialized : Bool)
    (uninitialised : Nat → UInt8) (fault : InitFault) :
    Except GError EmerCircularFile × CircularFileOnDisk :=
  let self : EmerCircularFile :=
    { disk := disk, metadataKeyFile := KeyFile.empty, writeBuffer := [], maxSize := maxSize
      size := 0, head := 0 }
  match self.initableInit reinitialized uninitialised fault with
  | (.error e, self) => (.error e, self.disk)
  | (.ok (), self) => (.ok self, self.disk)

/-! ## 4. Appending and saving -/

def append (self : EmerCircularFile) (elem : Bytes) : Bool × EmerCircularFile :=
  let elemSizeOnDisk := (sizeofElemSize + elem.length) % 2 ^ 64
  let totalSize := (self.size + self.writeBuffer.length + elemSizeOnDisk) % 2 ^ 64
  if totalSize > self.maxSize then (false, self)
  else
    (true,
      { self with
        writeBuffer :=
          gByteArrayAppend (gByteArrayAppend self.writeBuffer (toLittleEndian 8 elem.length))
            elem })

def tail (self : EmerCircularFile) : Nat :=
  -- a `goffset` plus a `guint64` is unsigned
  (self.head + self.size) % 2 ^ 64 % self.maxSize

/-- How much of the write buffer goes between the tail and the end of the file. -/
def bytesTail (self : EmerCircularFile) : Nat :=
  min self.writeBuffer.length (self.maxSize - self.tail)

/-- Writes what goes round to the start of the data file. -/
def writeAtStart (self : EmerCircularFile) (contents : Bytes) (fault : SaveFault) : Bool × Bytes :=
  let bytesStart := self.writeBuffer.length - self.bytesTail
  if bytesStart > 0 then
    let copyFrom := self.writeBuffer.drop self.bytesTail
    match fault with
    | .seekStart => (false, contents)
    | .writeStart written => (false, writeAt 0 contents 0 (copyFrom.take written))
    | _ => (true, writeAt 0 contents 0 copyFrom)
  else (true, contents)

def writeAtTail (self : EmerCircularFile) (contents : Bytes) (fault : SaveFault) : Bool × Bytes :=
  let bytes := self.writeBuffer.take self.bytesTail
  -- the seek and the write happen even when nothing goes there
  match fault with
  | .seekTail => (false, contents)
  | .writeTail written => (false, writeAt 0 contents self.tail (bytes.take written))
  | _ => (true, writeAt 0 contents self.tail bytes)

/-- The data file after both writes, or after the first one that fails. -/
def writeData (self : EmerCircularFile) (contents : Bytes) (fault : SaveFault) : Bool × Bytes :=
  match self.writeAtStart contents fault with
  | (false, contents) => (false, contents)
  | (true, contents) => self.writeAtTail contents fault

def save (self : EmerCircularFile) (fault : SaveFault) : Except GError Unit × EmerCircularFile :=
  if self.writeBuffer.length = 0 then (.ok (), self)
  else
    match self.disk.dataFile with
    | none => (.error .failed, self)
    | some contents =>
      if fault = .openReadwrite then (.error .failed, self)
      else
        match self.writeData contents fault with
        | (false, contents) =>
          (.error .failed, { self with disk := { self.disk with dataFile := some contents } })
        | (true, contents) =>
          let self := { self with disk := { self.disk with dataFile := some contents } }
          match self.addToSize self.writeBuffer.length (fault ≠ .metadata) with
          -- the write buffer outlives a size that cannot be recorded
          | (.error e, self) => (.error e, self)
          | (.ok (), self) => (.ok (), { self with writeBuffer := [] })

/-! ## 5. Reading and removing -/

/-- Goes on at the start of the file when the stream has met the end of a full one. -/
def continueReadingFromStart (self : EmerCircularFile) (stream : FileInputStream)
    (partiallyFilled : Bytes) (totalBytesToRead : Nat) :
    Except GError (Bytes × FileInputStream) :=
  if partiallyFilled.length = totalBytesToRead then .ok (partiallyFilled, stream)
  else if stream.position ≠ self.maxSize then
    .error (.invalidData ("Circular file has a physical size of " ++ toString stream.position ++
      "bytes, but expected physical size to be " ++ toString self.maxSize ++ " bytes."))
  else
    let bytesRemaining := totalBytesToRead - partiallyFilled.length
    let (bytes, stream) := (stream.seek 0).readAll bytesRemaining
    if bytesRemaining ≠ bytes.length then
      .error (.invalidData ("Circular file is shorter than expected. Reached end of " ++
        "file at byte " ++ toString bytes.length ++ "."))
    else .ok (partiallyFilled ++ bytes, stream)

def readBytes (self : EmerCircularFile) (stream : FileInputStream) (count : Nat) :
    Except GError (Bytes × FileInputStream) :=
  let (bytes, stream) := stream.readAll count
  self.continueReadingFromStart stream bytes count

def readElemSize (self : EmerCircularFile) (stream : FileInputStream) :
    Except GError (Nat × FileInputStream) :=
  match self.readBytes stream sizeofElemSize with
  | .error e => .error e
  | .ok (littleEndianElemSize, stream) => .ok (ofLittleEndian littleEndianElemSize, stream)

/-- The element is read into a buffer on the stack.  That the stack has room for it is not
modelled. -/
def appendElemToArray (self : EmerCircularFile) (stream : FileInputStream)
    (elemArray : List Bytes) (elemSize : Nat) : Except GError (List Bytes × FileInputStream) :=
  match self.readBytes stream elemSize with
  | .error e => .error e
  | .ok (elemData, stream) => .ok (elemArray ++ [elemData], stream)

/-- What the loop of `emer_circular_file_read` ends with: the elements read and the bytes they take
on disk, and whether it ran into invalid data. -/
structure ElemsRead where
  elems : List Bytes
  diskBytes : Nat
  hasInvalid : Bool
  deriving DecidableEq, Repr

/-- The loop of `emer_circular_file_read`.  Every round advances by more than eight bytes, so that
as many rounds as the file has bytes are enough. -/
def readElems (self : EmerCircularFile) (dataBytesToRead : Nat) :
    Nat → FileInputStream → List Bytes → Nat → Nat → Except GError ElemsRead
  | 0, _, elemArray, _, currDiskBytes =>
    if currDiskBytes < self.size then .error .hangs else .ok ⟨elemArray, currDiskBytes, false⟩
  | fuel + 1, stream, elemArray, currDataBytes, currDiskBytes =>
    if currDiskBytes < self.size then
      match self.readElemSize stream with
      | .error e => .error e
      | .ok (elemSize, stream) =>
        -- an element is never empty: what follows is invalid
        if elemSize = 0 then .ok ⟨elemArray, currDiskBytes, true⟩
        else
          let nextDataBytes := (currDataBytes + elemSize) % 2 ^ 64
          if nextDataBytes > dataBytesToRead then .ok ⟨elemArray, currDiskBytes, false⟩
          else
            match self.appendElemToArray stream elemArray elemSize with
            | .error e => .error e
            | .ok (elemArray, stream) =>
              self.readElems dataBytesToRead fuel stream elemArray nextDataBytes
                ((currDiskBytes + sizeofElemSize + elemSize) % 2 ^ 64)
    else .ok ⟨elemArray, currDiskBytes, false⟩

structure ReadResult where
  elems : List Bytes
  token : Nat
  deriving DecidableEq, Repr

/-- `emer_circular_file_read`, with `has_invalid` as the second component.  `saved` says whether the
metadata write succeeds that cuts off invalid data; the read succeeds also when that fails. -/
def read (self : EmerCircularFile) (dataBytesToRead : Nat) (saved : Bool) :
    Except GError ReadResult × Bool × EmerCircularFile :=
  if self.size = 0 then (.ok ⟨[], 0⟩, false, self)
  else
    match self.disk.dataFile with
    | none => (.error .failed, false, self)
    | some contents =>
      match self.readElems dataBytesToRead self.size ⟨contents, self.head⟩ [] 0 0 with
      | .error e => (.error e, false, self)
      | .ok result =>
        if result.hasInvalid then
          -- the size shrinks to what lies in front of the invalid element
          (.ok ⟨result.elems, result.diskBytes⟩, true,
            (self.setMetadata result.diskBytes self.head saved).2)
        else (.ok ⟨result.elems, result.diskBytes⟩, false, self)

/-- What a read that has succeeded leaves in `*error`: the failure of the metadata write that was to
cut off invalid data. -/
def errorLeft (self : EmerCircularFile) (hasInvalid saved : Bool) : Option GError :=
  match hasInvalid, (self.saveMetadataFile saved).1 with
  | true, .error e => some e
  | _, _ => none

@[simp] theorem errorLeft_valid (self : EmerCircularFile) (saved : Bool) :
    self.errorLeft false saved = none :=
  rfl

@[simp] theorem errorLeft_saved (self : EmerCircularFile) (hasInvalid : Bool) :
    self.errorLeft hasInvalid true = none := by
  cases hasInvalid with
  | false => rfl
  | true => rfl

def hasMore (self : EmerCircularFile) (token : Nat) : Bool :=
  token < self.size

def remove (self : EmerCircularFile) (token : Nat) (saved : Bool) :
    Except GError Unit × EmerCircularFile :=
  if token = 0 then (.ok (), self)
  else
    -- `guint64` subtraction
    let newSize := (self.size + (2 ^ 64 - token)) % 2 ^ 64
    let newHead := (self.head + token) % 2 ^ 64 % self.maxSize
    self.setMetadata newSize newHead saved

def purge (self : EmerCircularFile) (saved : Bool) : Except GError Unit × EmerCircularFile :=
  if self.size = 0 then (.ok (), self) else self.setMetadata 0 0 saved

end EmerCircularFile

end EventRecorder
