import EventRecorder.CircularFile.Basic
import EventRecorder.Theory.Loop

/-!
# Compression

`emer_gzip_compress` hands its input to a converter until that says it has finished, with twice the
memory after every round in which it has not.  The converter is a parameter, of which no more is
known than what a `GConverter` promises.  Sizes are unbounded here.
-/

namespace EventRecorder

open Theory

/-! ## 1. Converters -/

inductive GConverterFlags where
  | noFlags
  | inputAtEnd
  deriving DecidableEq, Repr

/-- `G_IO_ERROR_NO_SPACE`, or another error. -/
inductive ConversionError (ε : Type*) where
  | noSpace
  | other (error : ε)
  deriving DecidableEq, Repr

inductive GConverterResult (ε : Type*) where
  | error (error : ConversionError ε)
  | converted
  | finished
  | flushed
  deriving DecidableEq, Repr

/-- The arguments of `g_converter_convert`. -/
structure ConvertCall where
  input : Bytes
  outputSize : Nat
  flags : GConverterFlags
  deriving DecidableEq, Repr

/-- What a call returns and sets.  The memory for the output begins with `output` afterwards, and
the first `bytesWritten` bytes of that count. -/
structure Conversion (ε : Type*) where
  result : GConverterResult ε
  bytesRead : Nat
  bytesWritten : Nat
  output : Bytes
  deriving DecidableEq, Repr

structure GConverter (σ ε : Type*) where
  initial : σ
  convert : σ → ConvertCall → Conversion ε × σ

variable {σ ε : Type*}

/-- The calls of a converter so far. -/
abbrev Calls (ε : Type*) := List (ConvertCall × Conversion ε)

namespace Calls

def bytesRead (calls : Calls ε) : Nat := (calls.map fun call => call.2.bytesRead).sum

def bytesWritten (calls : Calls ε) : Nat := (calls.map fun call => call.2.bytesWritten).sum

/-- What the converter has taken of its input. -/
def consumed (calls : Calls ε) : Bytes :=
  (calls.map fun call => call.1.input.take call.2.bytesRead).flatten

/-- What it has produced. -/
def produced (calls : Calls ε) : Bytes :=
  (calls.map fun call => call.2.output.take call.2.bytesWritten).flatten

/-- Every call presents what the calls in front of it have left of the input, and passes
`G_CONVERTER_INPUT_AT_END` exactly if that is nothing. -/
def InOrder (inputData : Bytes) (calls : Calls ε) : Prop :=
  ∀ (pre : Calls ε) call, pre ++ [call] <+: calls →
    call.1.input = inputData.drop pre.bytesRead ∧
      (call.1.flags = .inputAtEnd ↔ call.1.input = [])

variable (calls : Calls ε) (call : ConvertCall × Conversion ε)

@[simp] theorem bytesRead_snoc :
    bytesRead (calls ++ [call]) = calls.bytesRead + call.2.bytesRead := by
  simp [bytesRead]

@[simp] theorem bytesWritten_snoc :
    bytesWritten (calls ++ [call]) = calls.bytesWritten + call.2.bytesWritten := by
  simp [bytesWritten]

@[simp] theorem consumed_snoc :
    consumed (calls ++ [call]) = calls.consumed ++ call.1.input.take call.2.bytesRead := by
  simp [consumed]

@[simp] theorem produced_snoc :
    produced (calls ++ [call]) = calls.produced ++ call.2.output.take call.2.bytesWritten := by
  simp [produced]

end Calls

/-- A call that the next part of the input may be presented by. -/
structure ConvertCall.Legal (inputData : Bytes) (calls : Calls ε) (call : ConvertCall) : Prop where
  input_prefix : call.input <+: inputData.drop calls.bytesRead
  outputSize_pos : 0 < call.outputSize
  atEnd : call.flags = .inputAtEnd → call.input = inputData.drop calls.bytesRead
  nonempty : call.flags = .noFlags → call.input ≠ []

/-- The state of a converter that has been presented parts of an input, and has neither finished
nor failed. -/
inductive GConverter.Session (converter : GConverter σ ε) (inputData : Bytes) : σ → Calls ε → Prop
  | start : Session converter inputData converter.initial []
  | call {s : σ} {calls : Calls ε} {call : ConvertCall}
      (before : Session converter inputData s calls) (legal : call.Legal inputData calls)
      (goesOn : (converter.convert s call).1.result = .converted ∨
        (converter.convert s call).1.result = .error .noSpace) :
      Session converter inputData (converter.convert s call).2
        (calls ++ [(call, (converter.convert s call).1)])

/-- What a converter promises about one more call. -/
structure Conversion.Keeps (calls : Calls ε) (call : ConvertCall) (conversion : Conversion ε) :
    Prop where
  reads : conversion.bytesRead ≤ call.input.length
  writes : conversion.bytesWritten ≤ conversion.output.length
  fits : conversion.output.length ≤ call.outputSize
  noSpace : conversion.result = .error .noSpace →
    conversion.bytesRead = 0 ∧ conversion.bytesWritten = 0
  converted : conversion.result = .converted →
    0 < conversion.bytesRead + conversion.bytesWritten
  finished : conversion.result = .finished →
    ∃ earlier ∈ calls ++ [(call, conversion)], earlier.1.flags = .inputAtEnd
  -- nobody asks for a flush
  flushed : conversion.result ≠ .flushed

/-- **The contract of a `GConverter`** for an input. -/
structure GConverter.Contract (converter : GConverter σ ε) (inputData : Bytes) : Prop where
  keeps : ∀ s calls call, converter.Session inputData s calls → call.Legal inputData calls →
    (converter.convert s call).1.Keeps calls call
  enoughSpace : ∃ bound, ∀ s calls call, converter.Session inputData s calls →
    call.Legal inputData calls → bound < call.outputSize →
    (converter.convert s call).1.result ≠ .error .noSpace
  finite : ∃ limit, ∀ s calls, converter.Session inputData s calls → calls.bytesWritten ≤ limit

/-! ## 2. The loop -/

/-- The memory of a `GByteArray` that is set to a size; GLib may reserve more than that. -/
def gByteArraySetSize (uninitialised : Nat → UInt8) (memory : Bytes) (length : Nat) : Bytes :=
  memory ++ (List.range' memory.length (length - memory.length)).map uninitialised

/-- No memory is allocated for nothing. -/
def gMemdup2 (memory : Bytes) (byteSize : Nat) : Option Bytes :=
  if byteSize = 0 then none else some (memory.take byteSize)

/-- The variables of the loop, with the calls that the converter has had. -/
structure GzipState (σ ε : Type*) where
  converter : σ
  allocatedSpace : Nat
  byteArray : Bytes
  totalBytesRead : Nat
  totalBytesWritten : Nat
  calls : Calls ε

structure Compressed where
  compressedData : Option Bytes
  compressedLength : Nat
  deriving DecidableEq, Repr

section Loop

variable (converter : GConverter σ ε) (uninitialised : Nat → UInt8) (inputData : Bytes)

def GzipState.start : GzipState σ ε where
  converter := converter.initial
  allocatedSpace := inputData.length + 1
  byteArray := gByteArraySetSize uninitialised [] (inputData.length + 1)
  totalBytesRead := 0
  totalBytesWritten := 0
  calls := []

/-- Expands the byte array. -/
def GzipState.expand (state : GzipState σ ε) : GzipState σ ε :=
  { state with
    allocatedSpace := state.allocatedSpace * 2
    byteArray := gByteArraySetSize uninitialised state.byteArray (state.allocatedSpace * 2) }

def GzipState.nextCall (state : GzipState σ ε) : ConvertCall where
  input := inputData.drop state.totalBytesRead
  outputSize := state.allocatedSpace - state.totalBytesWritten
  flags := if inputData.length - state.totalBytesRead > 0 then .noFlags else .inputAtEnd

def GzipState.conversion (state : GzipState σ ε) : Conversion ε :=
  (converter.convert state.converter (state.nextCall inputData)).1

/-- After the call, with what it has left in the byte array. -/
def GzipState.called (state : GzipState σ ε) : GzipState σ ε :=
  { state with
    converter := (converter.convert state.converter (state.nextCall inputData)).2
    byteArray := writeAt 0 state.byteArray state.totalBytesWritten
      (state.conversion converter inputData).output
    calls := state.calls ++ [(state.nextCall inputData, state.conversion converter inputData)] }

def GzipState.advance (state : GzipState σ ε) (conversion : Conversion ε) : GzipState σ ε :=
  { state with
    totalBytesRead := state.totalBytesRead + conversion.bytesRead
    totalBytesWritten := state.totalBytesWritten + conversion.bytesWritten }

/-- A round of the loop of `emer_gzip_compress`.  The function returns the compressed data or an
error. -/
def compressRound (state : GzipState σ ε) : GzipState σ ε ⊕ (Except ε Compressed × Calls ε) :=
  if state.allocatedSpace - state.totalBytesWritten = 0 then .inl (state.expand uninitialised)
  else
    let conversion := state.conversion converter inputData
    let state := state.called converter inputData
    match conversion.result with
    | .error .noSpace => .inl (state.expand uninitialised)
    | .error (.other error) => .inr (.error error, state.calls)
    | .finished =>
      let state := state.advance conversion
      .inr (.ok
        { compressedData := gMemdup2 state.byteArray state.totalBytesWritten
          compressedLength := state.totalBytesWritten }, state.calls)
    | .converted | .flushed => .inl ((state.advance conversion).expand uninitialised)

/-- `emer_gzip_compress`, with the calls that it made. -/
def emerGzipCompress (fuel : Nat) : Option (Except ε Compressed × Calls ε) :=
  loop (compressRound converter uninitialised inputData) fuel
    (GzipState.start converter uninitialised inputData)

end Loop

/-! ## 3. The converter's memory -/

theorem length_gByteArraySetSize (uninitialised : Nat → UInt8) (memory : Bytes) (length : Nat) :
    (gByteArraySetSize uninitialised memory length).length = max memory.length length := by
  rw [gByteArraySetSize, List.length_append, List.length_map, List.length_range']
  omega

/-- Expanding keeps what is in the memory. -/
theorem take_gByteArraySetSize (uninitialised : Nat → UInt8) {memory : Bytes} {n : Nat}
    (hn : n ≤ memory.length) (length : Nat) :
    (gByteArraySetSize uninitialised memory length).take n = memory.take n := by
  rw [gByteArraySetSize, List.take_append_of_le_length hn]

/-- What a converter leaves behind the bytes written so far does not change those, and its first
bytes come behind them. -/
theorem take_writeAt {memory output : Bytes} {pos n : Nat} (hpos : pos ≤ memory.length)
    (hn : n ≤ output.length) :
    (writeAt 0 memory pos output).take (pos + n) = memory.take pos ++ output.take n := by
  unfold writeAt
  split
  · rename_i hnil
    rw [hnil, List.length_nil] at hn
    rw [show n = 0 by omega, Nat.add_zero, List.take_zero, List.append_nil]
  · have hfront : (memory.take pos ++ List.replicate (pos - memory.length) 0).length = pos :=
      length_padded_prefix 0 memory pos
    rw [List.append_assoc, List.take_append, hfront, Nat.add_sub_cancel_left,
      List.take_of_length_le (by omega), List.take_append_of_le_length hn,
      Nat.sub_eq_zero_of_le hpos, List.replicate_zero, List.append_nil]

/-! ## 4. What holds in every round -/

section Rounds

variable {converter : GConverter σ ε} {uninitialised : Nat → UInt8} {inputData : Bytes}
variable {state next : GzipState σ ε}

/-- The counters of the loop: what they count, and how far they go. -/
structure GzipState.Counts (inputData : Bytes) (state : GzipState σ ε) : Prop where
  inOrder : state.calls.InOrder inputData
  read_eq : state.totalBytesRead = state.calls.bytesRead
  written_eq : state.totalBytesWritten = state.calls.bytesWritten
  read_le : state.totalBytesRead ≤ inputData.length
  written_le : state.totalBytesWritten ≤ state.allocatedSpace
  allocated_pos : 0 < state.allocatedSpace
  allocated_le : state.allocatedSpace ≤ state.byteArray.length
  consumed_eq : state.calls.consumed = inputData.take state.totalBytesRead
  produced_eq : state.calls.produced = state.byteArray.take state.totalBytesWritten

/-- The invariant of the loop. -/
structure GzipState.Driving (converter : GConverter σ ε) (inputData : Bytes)
    (state : GzipState σ ε) : Prop extends state.Counts inputData where
  session : converter.Session inputData state.converter state.calls

theorem GzipState.nextCall_atEnd_iff :
    (state.nextCall inputData).flags = .inputAtEnd ↔ (state.nextCall inputData).input = [] := by
  unfold GzipState.nextCall
  dsimp only
  rw [List.drop_eq_nil_iff, ← Nat.sub_eq_zero_iff_le]
  by_cases hleft : inputData.length - state.totalBytesRead > 0
  · rw [if_pos hleft]
    simp
    omega
  · rw [if_neg hleft]
    simp
    omega

namespace GzipState.Counts

theorem start : (GzipState.start converter uninitialised inputData).Counts inputData where
  inOrder := by
    intro pre call hpre
    simp [GzipState.start] at hpre
  read_eq := rfl
  written_eq := rfl
  read_le := Nat.zero_le _
  written_le := Nat.zero_le _
  allocated_pos := Nat.succ_pos _
  allocated_le := by
    show inputData.length + 1 ≤ (gByteArraySetSize uninitialised [] (inputData.length + 1)).length
    rw [length_gByteArraySetSize]
    exact le_max_right _ _
  consumed_eq := rfl
  produced_eq := rfl

theorem expand (h : state.Counts inputData) : (state.expand uninitialised).Counts inputData where
  inOrder := h.inOrder
  read_eq := h.read_eq
  written_eq := h.written_eq
  read_le := h.read_le
  written_le := h.written_le.trans (Nat.le_mul_of_pos_right _ (by decide))
  allocated_pos := Nat.mul_pos h.allocated_pos (by decide)
  allocated_le := by
    show state.allocatedSpace * 2 ≤
      (gByteArraySetSize uninitialised state.byteArray (state.allocatedSpace * 2)).length
    rw [length_gByteArraySetSize]
    exact le_max_right _ _
  consumed_eq := h.consumed_eq
  produced_eq := by
    show _ = (gByteArraySetSize uninitialised state.byteArray _).take state.totalBytesWritten
    rw [take_gByteArraySetSize _ (h.written_le.trans h.allocated_le)]
    exact h.produced_eq

theorem legal (h : state.Counts inputData)
    (hspace : state.allocatedSpace - state.totalBytesWritten ≠ 0) :
    (state.nextCall inputData).Legal inputData state.calls where
  input_prefix := by
    show inputData.drop state.totalBytesRead <+: _
    rw [h.read_eq]
  outputSize_pos := Nat.pos_of_ne_zero hspace
  atEnd := fun _ => congrArg inputData.drop h.read_eq
  nonempty := by
    intro hflags hnil
    rw [nextCall_atEnd_iff.mpr hnil] at hflags
    cases hflags

/-- The calls are still in order with one more. -/
theorem inOrder_called (h : state.Counts inputData) :
    (state.called converter inputData).calls.InOrder inputData := by
  intro pre call hpre
  unfold GzipState.called at hpre
  dsimp only at hpre
  rw [List.prefix_concat_iff] at hpre
  cases hpre with
  | inl hlast =>
    obtain ⟨hcalls, hcall⟩ := List.append_inj' hlast rfl
    rw [(List.cons.inj hcall).1, hcalls, ← h.read_eq]
    exact ⟨rfl, nextCall_atEnd_iff⟩
  | inr hearlier => exact h.inOrder pre call hearlier

/-- A call that keeps its promises, counted by the loop. -/
theorem advance (h : state.Counts inputData)
    (hkeeps : (state.conversion converter inputData).Keeps state.calls
      (state.nextCall inputData)) :
    ((state.called converter inputData).advance (state.conversion converter inputData)).Counts
      inputData := by
  have hreads := hkeeps.reads
  have hlength : (state.nextCall inputData).input.length =
    inputData.length - state.totalBytesRead := List.length_drop
  have hfits := hkeeps.writes.trans hkeeps.fits
  have hsize : (state.nextCall inputData).outputSize =
    state.allocatedSpace - state.totalBytesWritten := rfl
  have hroom := h.written_le
  have hread := h.read_le
  exact
    { inOrder := h.inOrder_called
      read_eq := by
        show state.totalBytesRead + _ = Calls.bytesRead (state.calls ++ [_])
        rw [Calls.bytesRead_snoc, ← h.read_eq]
      written_eq := by
        show state.totalBytesWritten + _ = Calls.bytesWritten (state.calls ++ [_])
        rw [Calls.bytesWritten_snoc, ← h.written_eq]
      read_le := by
        show state.totalBytesRead + _ ≤ inputData.length
        omega
      written_le := by
        show state.totalBytesWritten + _ ≤ state.allocatedSpace
        omega
      allocated_pos := h.allocated_pos
      allocated_le := h.allocated_le.trans (length_le_length_writeAt _ _ _ _)
      consumed_eq := by
        show Calls.consumed (state.calls ++ [_]) = inputData.take (state.totalBytesRead + _)
        rw [Calls.consumed_snoc, h.consumed_eq, List.take_add]
        rfl
      produced_eq := by
        show Calls.produced (state.calls ++ [_]) =
          (writeAt 0 state.byteArray state.totalBytesWritten _).take (state.totalBytesWritten + _)
        rw [Calls.produced_snoc, h.produced_eq,
          take_writeAt (h.written_le.trans h.allocated_le) hkeeps.writes] }

/-- Once the end of the input has been announced, all of it has been read. -/
theorem read_all (h : state.Counts inputData)
    (hend : ∃ call ∈ state.calls, call.1.flags = .inputAtEnd) :
    state.totalBytesRead = inputData.length := by
  obtain ⟨call, hcall, hflags⟩ := hend
  obtain ⟨pre, post, hcalls⟩ := List.append_of_mem hcall
  have hsplit : state.calls = (pre ++ [call]) ++ post := by rw [hcalls, List.append_assoc]; rfl
  obtain ⟨hinput, hatEnd⟩ := h.inOrder pre call ⟨post, hsplit.symm⟩
  rw [hatEnd.mp hflags, eq_comm, List.drop_eq_nil_iff] at hinput
  have hbefore : Calls.bytesRead pre ≤ state.calls.bytesRead := by
    rw [hcalls]
    unfold Calls.bytesRead
    rw [List.map_append, List.sum_append]
    exact Nat.le_add_right _ _
  have hread := h.read_eq
  have hle := h.read_le
  omega

end GzipState.Counts

/-! ## 5. One round -/

theorem GConverter.Session.goesOn {s : σ} {calls : Calls ε}
    (h : converter.Session inputData s calls) :
    ∀ call ∈ calls, call.2.result = .converted ∨ call.2.result = .error .noSpace := by
  induction h with
  | start =>
    intro call hcall
    cases hcall
  | call _ _ hlast ih =>
    intro call hcall
    cases List.mem_append.mp hcall with
    | inl hearlier => exact ih call hearlier
    | inr hcall =>
      rw [List.mem_singleton.mp hcall]
      exact hlast

/-- A call without progress leaves the counters as they are. -/
theorem GzipState.advance_of_noProgress {conversion : Conversion ε}
    (h : conversion.bytesRead = 0 ∧ conversion.bytesWritten = 0) :
    state.advance conversion = state := by
  unfold GzipState.advance
  rw [h.1, h.2]
  rfl

/-- Why a round goes on: no room at all, too little room, or progress. -/
theorem compressRound_eq_inl (hround : compressRound converter uninitialised inputData state =
      .inl next) :
    (state.allocatedSpace - state.totalBytesWritten = 0 ∧ next = state.expand uninitialised) ∨
    (state.allocatedSpace - state.totalBytesWritten ≠ 0 ∧
      (state.conversion converter inputData).result = .error .noSpace ∧
      next = (state.called converter inputData).expand uninitialised) ∨
    (state.allocatedSpace - state.totalBytesWritten ≠ 0 ∧
      ((state.conversion converter inputData).result = .converted ∨
        (state.conversion converter inputData).result = .flushed) ∧
      next = ((state.called converter inputData).advance
        (state.conversion converter inputData)).expand uninitialised) := by
  unfold compressRound at hround
  by_cases hspace : state.allocatedSpace - state.totalBytesWritten = 0
  · rw [if_pos hspace] at hround
    exact .inl ⟨hspace, (Sum.inl.inj hround).symm⟩
  rw [if_neg hspace] at hround
  cases hresult : (state.conversion converter inputData).result with
  | error error =>
    cases error with
    | noSpace =>
      simp only [hresult] at hround
      exact .inr (.inl ⟨hspace, rfl, (Sum.inl.inj hround).symm⟩)
    | other error => simp [hresult] at hround
  | converted =>
    simp only [hresult] at hround
    exact .inr (.inr ⟨hspace, .inl rfl, (Sum.inl.inj hround).symm⟩)
  | finished => simp [hresult] at hround
  | flushed =>
    simp only [hresult] at hround
    exact .inr (.inr ⟨hspace, .inr rfl, (Sum.inl.inj hround).symm⟩)

/-- Why it is the last: the converter has finished, or has failed. -/
theorem compressRound_eq_inr {outcome : Except ε Compressed × Calls ε}
    (hround : compressRound converter uninitialised inputData state = .inr outcome) :
    state.allocatedSpace - state.totalBytesWritten ≠ 0 ∧
    outcome.2 = (state.called converter inputData).calls ∧
    ((∃ error, (state.conversion converter inputData).result = .error (.other error) ∧
        outcome.1 = .error error) ∨
      ((state.conversion converter inputData).result = .finished ∧
        outcome.1 = .ok
          { compressedData := gMemdup2 (state.called converter inputData).byteArray
              (state.totalBytesWritten + (state.conversion converter inputData).bytesWritten)
            compressedLength :=
              state.totalBytesWritten +
                (state.conversion converter inputData).bytesWritten })) := by
  unfold compressRound at hround
  by_cases hspace : state.allocatedSpace - state.totalBytesWritten = 0
  · rw [if_pos hspace] at hround
    cases hround
  rw [if_neg hspace] at hround
  refine ⟨hspace, ?_⟩
  cases hresult : (state.conversion converter inputData).result with
  | error error =>
    cases error with
    | noSpace => simp [hresult] at hround
    | other error =>
      simp only [hresult] at hround
      rw [← Sum.inr.inj hround]
      exact ⟨rfl, .inl ⟨error, rfl, rfl⟩⟩
  | converted => simp [hresult] at hround
  | finished =>
    simp only [hresult] at hround
    rw [← Sum.inr.inj hround]
    exact ⟨rfl, .inr ⟨rfl, rfl⟩⟩
  | flushed => simp [hresult] at hround

namespace GzipState.Driving

theorem start :
    (GzipState.start converter uninitialised inputData).Driving converter inputData where
  toCounts := .start
  session := .start

theorem keeps (h : state.Driving converter inputData) (contract : converter.Contract inputData)
    (hspace : state.allocatedSpace - state.totalBytesWritten ≠ 0) :
    (state.conversion converter inputData).Keeps state.calls (state.nextCall inputData) :=
  contract.keeps _ _ _ h.session (h.legal hspace)

/-- A round that goes on after a call has counted it, also where there was no progress. -/
theorem eq_of_round (h : state.Driving converter inputData)
    (contract : converter.Contract inputData)
    (hspace : state.allocatedSpace - state.totalBytesWritten ≠ 0)
    (hround : compressRound converter uninitialised inputData state = .inl next) :
    ((state.conversion converter inputData).result = .converted ∨
      (state.conversion converter inputData).result = .error .noSpace) ∧
    next = ((state.called converter inputData).advance
      (state.conversion converter inputData)).expand uninitialised := by
  have hkeeps := h.keeps contract hspace
  rcases compressRound_eq_inl hround with ⟨hfull, -⟩ | ⟨-, hnoSpace, hnext⟩ | ⟨-, hresult, hnext⟩
  · exact absurd hfull hspace
  · rw [GzipState.advance_of_noProgress (hkeeps.noSpace hnoSpace)]
    exact ⟨.inr hnoSpace, hnext⟩
  · exact ⟨.inl (hresult.resolve_right hkeeps.flushed), hnext⟩

theorem round (h : state.Driving converter inputData) (contract : converter.Contract inputData)
    (hround : compressRound converter uninitialised inputData state = .inl next) :
    next.Driving converter inputData := by
  by_cases hspace : state.allocatedSpace - state.totalBytesWritten = 0
  · unfold compressRound at hround
    rw [if_pos hspace] at hround
    rw [← Sum.inl.inj hround]
    exact ⟨h.toCounts.expand, h.session⟩
  · obtain ⟨hresult, hnext⟩ := h.eq_of_round contract hspace hround
    rw [hnext]
    exact ⟨(h.toCounts.advance (h.keeps contract hspace)).expand,
      h.session.call (h.legal hspace) hresult⟩

theorem reaches (contract : converter.Contract inputData)
    (hreach : Reaches (compressRound converter uninitialised inputData)
      (GzipState.start converter uninitialised inputData) state) :
    state.Driving converter inputData :=
  hreach.invariant (fun _ _ h hround => h.round contract hround) .start

end GzipState.Driving

/-! ## 6. Termination -/

/-- What is left to read, to write, and of the memory that the output and the largest request for
space come to. -/
def GzipState.left (inputData : Bytes) (limit bound : Nat) (state : GzipState σ ε) : Nat :=
  (inputData.length - state.totalBytesRead) + (limit - state.totalBytesWritten) +
    (bound + limit + 1 - state.allocatedSpace)

theorem GzipState.Driving.left_lt (h : state.Driving converter inputData)
    (contract : converter.Contract inputData) {bound limit : Nat}
    (henough : ∀ s calls call, converter.Session inputData s calls →
      call.Legal inputData calls → bound < call.outputSize →
      (converter.convert s call).1.result ≠ .error .noSpace)
    (hfinite : ∀ s calls, converter.Session inputData s calls → calls.bytesWritten ≤ limit)
    (hround : compressRound converter uninitialised inputData state = .inl next) :
    next.left inputData limit bound < state.left inputData limit bound := by
  have hnext := h.round contract hround
  have hpos := h.allocated_pos
  have hwritten : state.totalBytesWritten ≤ limit := h.written_eq.trans_le (hfinite _ _ h.session)
  have hwrittenNext : next.totalBytesWritten ≤ limit :=
    hnext.written_eq.trans_le (hfinite _ _ hnext.session)
  have hreadNext := hnext.read_le
  have hroom := h.written_le
  unfold GzipState.left
  by_cases hspace : state.allocatedSpace - state.totalBytesWritten = 0
  -- without room the memory is no larger than the output
  · unfold compressRound at hround
    rw [if_pos hspace] at hround
    rw [← Sum.inl.inj hround]
    show inputData.length - state.totalBytesRead + (limit - state.totalBytesWritten) +
      (bound + limit + 1 - state.allocatedSpace * 2) < _
    omega
  have hkeeps := h.keeps contract hspace
  obtain ⟨hresult, heq⟩ := h.eq_of_round contract hspace hround
  have hallocated : next.allocatedSpace = state.allocatedSpace * 2 := by rw [heq]; rfl
  have hread : next.totalBytesRead =
    state.totalBytesRead + (state.conversion converter inputData).bytesRead := by rw [heq]; rfl
  have hwrites : next.totalBytesWritten =
      state.totalBytesWritten + (state.conversion converter inputData).bytesWritten := by
    rw [heq]
    rfl
  cases hresult with
  | inl hconverted =>
    have hprogress := hkeeps.converted hconverted
    omega
  -- with too little room it is not much larger
  | inr hnoSpace =>
    have hbounded : state.allocatedSpace - state.totalBytesWritten ≤ bound := by
      by_contra hlarge
      exact henough _ _ _ h.session (h.legal hspace) (Nat.not_le.mp hlarge) hnoSpace
    omega

theorem exists_emerGzipCompress (contract : converter.Contract inputData) :
    ∃ fuel outcome, emerGzipCompress converter uninitialised inputData fuel = some outcome := by
  obtain ⟨bound, henough⟩ := contract.enoughSpace
  obtain ⟨limit, hfinite⟩ := contract.finite
  exact ⟨_, exists_loop_of_measure (GzipState.left inputData limit bound)
    (fun _ _ h hround => ⟨GzipState.Driving.round h contract hround,
      GzipState.Driving.left_lt h contract henough hfinite hround⟩)
    GzipState.Driving.start (Nat.lt_succ_self _)⟩

/-! ## 7. The result -/

/-- The counters stay within what they count. -/
structure GzipState.Within (inputData : Bytes) (state : GzipState σ ε) : Prop where
  read_le : state.totalBytesRead ≤ inputData.length
  written_le : state.totalBytesWritten ≤ state.allocatedSpace
  allocated_le : state.allocatedSpace ≤ state.byteArray.length

theorem GzipState.Counts.within (h : state.Counts inputData) : state.Within inputData :=
  ⟨h.read_le, h.written_le, h.allocated_le⟩

/-- What comes out of the calls of a compression. -/
structure Completes (inputData : Bytes) (outcome : Except ε Compressed × Calls ε) : Prop where
  inOrder : outcome.2.InOrder inputData
  compressed : ∀ result, outcome.1 = .ok result →
    outcome.2.consumed = inputData ∧
      result.compressedData = gMemdup2 outcome.2.produced outcome.2.produced.length ∧
      result.compressedLength = outcome.2.produced.length
  failed : ∀ error, outcome.1 = .error error ↔
    ∃ call ∈ outcome.2, call.2.result = .error (.other error)

theorem gMemdup2_take {memory : Bytes} {n : Nat} (hn : n ≤ memory.length) :
    gMemdup2 memory n = gMemdup2 (memory.take n) (memory.take n).length := by
  unfold gMemdup2
  rw [List.length_take, Nat.min_eq_left hn, List.take_take, Nat.min_self]

theorem GzipState.Driving.completes (h : state.Driving converter inputData)
    (contract : converter.Contract inputData) {outcome : Except ε Compressed × Calls ε}
    (hround : compressRound converter uninitialised inputData state = .inr outcome) :
    Completes inputData outcome := by
  obtain ⟨hspace, hcalls, hresult⟩ := compressRound_eq_inr hround
  have hkeeps := h.keeps contract hspace
  have hcounts := h.toCounts.advance hkeeps
  have hlast : (state.nextCall inputData, state.conversion converter inputData) ∈ outcome.2 := by
    rw [hcalls]
    exact List.mem_append_right _ List.mem_cons_self
  -- the calls in front of the last one have not failed
  have hfails : ∀ error, (∃ call ∈ outcome.2, call.2.result = .error (.other error)) ↔
      (state.conversion converter inputData).result = .error (.other error) := by
    intro error
    constructor
    · intro hfailed
      obtain ⟨call, hcall, herror⟩ := hfailed
      rw [hcalls] at hcall
      cases List.mem_append.mp hcall with
      | inl hearlier =>
        cases h.session.goesOn call hearlier with
        | inl hconverted => cases hconverted.symm.trans herror
        | inr hnoSpace => cases hnoSpace.symm.trans herror
      | inr hcall =>
        rw [List.mem_singleton.mp hcall] at herror
        exact herror
    · intro herror
      exact ⟨_, hlast, herror⟩
  refine ⟨hcalls ▸ h.toCounts.inOrder_called, ?_, fun error => ?_⟩
  · intro result hok
    cases hresult with
    | inl hfailed =>
      obtain ⟨error, -, herror⟩ := hfailed
      cases herror.symm.trans hok
    | inr hfinished =>
      rw [← Except.ok.inj (hfinished.2.symm.trans hok), hcalls]
      have hall := hcounts.read_all (hkeeps.finished hfinished.1)
      have hconsumed := hcounts.consumed_eq
      rw [hall, List.take_length] at hconsumed
      have hproduced := hcounts.produced_eq
      have hwithin := hcounts.written_le.trans hcounts.allocated_le
      have hlength := congrArg List.length hproduced
      rw [List.length_take, Nat.min_eq_left hwithin] at hlength
      refine ⟨hconsumed, ?_, hlength.symm⟩
      have hmemdup := gMemdup2_take hwithin
      rw [← hproduced] at hmemdup
      exact hmemdup
  · rw [hfails]
    cases hresult with
    | inl hfailed =>
      obtain ⟨other, hother, herror⟩ := hfailed
      rw [herror, hother]
      simp
    | inr hfinished =>
      rw [hfinished.1, hfinished.2]
      simp

end Rounds

/-- **Compression ends with the whole output of the converter, or with its error**, for every
converter that keeps its contract. -/
theorem gzipCompress_completes (converter : GConverter σ ε) (uninitialised : Nat → UInt8)
    (inputData : Bytes) (contract : converter.Contract inputData) :
    (∀ state, Reaches (compressRound converter uninitialised inputData)
        (GzipState.start converter uninitialised inputData) state →
      state.Within inputData ∧
        (state.allocatedSpace - state.totalBytesWritten ≠ 0 →
          ((state.called converter inputData).advance
            (state.conversion converter inputData)).Within inputData)) ∧
    ∃ fuel outcome, emerGzipCompress converter uninitialised inputData fuel = some outcome ∧
      Completes inputData outcome := by
  constructor
  · intro state hreach
    have hdriving := GzipState.Driving.reaches contract hreach
    exact ⟨hdriving.within, fun hspace =>
      (hdriving.toCounts.advance (hdriving.keeps contract hspace)).within⟩
  · obtain ⟨fuel, outcome, houtcome⟩ := exists_emerGzipCompress contract
    obtain ⟨last, hreach, hround⟩ := exists_reaches_of_loop houtcome
    exact ⟨fuel, outcome, houtcome,
      (GzipState.Driving.reaches contract hreach).completes contract hround⟩

/-! ## 8. A compressor that writes in blocks -/

/-- Writes the next block of what is pending if there is room for all of it. -/
def writeBlock (block : Nat) (state : Bytes ⊕ Bytes) (call : ConvertCall) (pending : Bytes) :
    Conversion GError × (Bytes ⊕ Bytes) :=
  if call.outputSize < (pending.take block).length then (⟨.error .noSpace, 0, 0, []⟩, state)
  else
    ({ result := if pending.length ≤ block then .finished else .converted
       bytesRead := call.input.length
       bytesWritten := (pending.take block).length
       output := pending.take block },
      .inr (pending.drop block))

/-- A converter that gathers its input, and compresses it when all of it is there. -/
def blockCompressor (compress : Bytes → Bytes) (block : Nat) : GConverter (Bytes ⊕ Bytes) GError
    where
  initial := .inl []
  convert state call :=
    match state, call.flags with
    | .inl gathered, .noFlags =>
      (⟨.converted, call.input.length, 0, []⟩, .inl (gathered ++ call.input))
    | .inl gathered, .inputAtEnd => writeBlock block state call (compress (gathered ++ call.input))
    | .inr pending, _ => writeBlock block state call pending

section Blocks

variable {compress : Bytes → Bytes} {block : Nat} {inputData : Bytes}

/-- What a session has gathered is the input so far, and what is pending the rest of the output. -/
inductive Gathering (compress : Bytes → Bytes) (inputData : Bytes) (calls : Calls GError) :
    Bytes ⊕ Bytes → Prop
  | gathers {gathered : Bytes} (written : calls.bytesWritten = 0)
      (split : gathered ++ inputData.drop calls.bytesRead = inputData) :
      Gathering compress inputData calls (.inl gathered)
  | writes {pending : Bytes} (nonempty : 0 < pending.length)
      (read : inputData.drop calls.bytesRead = [])
      (written : calls.bytesWritten + pending.length = (compress inputData).length)
      (atEnd : ∃ call ∈ calls, call.1.flags = .inputAtEnd) :
      Gathering compress inputData calls (.inr pending)

theorem writeBlock_cases (hblock : 0 < block) {state : Bytes ⊕ Bytes} {call : ConvertCall}
    {pending : Bytes} (hpending : 0 < pending.length) :
    (call.outputSize < block ∧
        writeBlock block state call pending = (⟨.error .noSpace, 0, 0, []⟩, state)) ∨
      ∃ result, (result = .finished ∨ result = .converted ∧ block < pending.length) ∧
        0 < (pending.take block).length ∧ (pending.take block).length ≤ call.outputSize ∧
        writeBlock block state call pending =
          (⟨result, call.input.length, (pending.take block).length, pending.take block⟩,
            .inr (pending.drop block)) := by
  have hlength : (pending.take block).length = min block pending.length := List.length_take
  unfold writeBlock
  by_cases hroom : call.outputSize < (pending.take block).length
  · rw [if_pos hroom]
    exact .inl ⟨by omega, rfl⟩
  rw [if_neg hroom]
  refine .inr ⟨_, ?_, by omega, Nat.not_lt.mp hroom, rfl⟩
  by_cases hlast : pending.length ≤ block
  · exact .inl (if_pos hlast)
  · exact .inr ⟨if_neg hlast, Nat.not_le.mp hlast⟩

/-- A call without progress changes nothing. -/
theorem Gathering.noSpace {calls : Calls GError} {call : ConvertCall} {state : Bytes ⊕ Bytes}
    (h : Gathering compress inputData calls state) :
    Gathering compress inputData (calls ++ [(call, ⟨.error .noSpace, 0, 0, []⟩)]) state := by
  cases h with
  | gathers written split =>
    exact .gathers ((Calls.bytesWritten_snoc _ _).trans written) (by
      rw [Calls.bytesRead_snoc]
      exact split)
  | writes nonempty read written atEnd =>
    obtain ⟨earlier, hearlier, hflags⟩ := atEnd
    refine .writes nonempty ?_ ?_ ⟨earlier, List.mem_append_left _ hearlier, hflags⟩
    · rw [Calls.bytesRead_snoc]
      exact read
    · rw [Calls.bytesWritten_snoc]
      exact written

/-- What one call does: it keeps its promises, the converter goes on gathering or writing, and it
asks for no more space than a block takes. -/
structure Gathering.Called (compress : Bytes → Bytes) (block : Nat) (inputData : Bytes)
    (calls : Calls GError) (call : ConvertCall) (called : Conversion GError × (Bytes ⊕ Bytes)) :
    Prop where
  keeps : called.1.Keeps calls call
  goesOn : called.1.result ≠ .finished →
    Gathering compress inputData (calls ++ [(call, called.1)]) called.2
  space : called.1.result = .error .noSpace → call.outputSize < block

/-- A block is written when all of the input is there. -/
theorem Gathering.writeBlock (hblock : 0 < block) {calls : Calls GError} {call : ConvertCall}
    {state : Bytes ⊕ Bytes} (h : Gathering compress inputData calls state) {pending : Bytes}
    (hpending : 0 < pending.length)
    (hread : inputData.drop (calls.bytesRead + call.input.length) = [])
    (hwritten : calls.bytesWritten + pending.length = (compress inputData).length)
    (hflags : call.flags = .inputAtEnd) :
    Gathering.Called compress block inputData calls call
      (EventRecorder.writeBlock block state call pending) := by
  rcases @writeBlock_cases block hblock state call pending hpending with
    ⟨hroom, heq⟩ | ⟨result, hresult, hpositive, hfits, heq⟩
  · rw [heq]
    refine ⟨⟨Nat.zero_le _, Nat.le_refl _, Nat.zero_le _, fun _ => ⟨rfl, rfl⟩, ?_, ?_, ?_⟩,
      fun _ => h.noSpace, fun _ => hroom⟩
    · intro hconverted
      cases hconverted
    · intro hfinished
      cases hfinished
    · intro hflushed
      cases hflushed
  rw [heq]
  have hlast : (call, Conversion.mk result call.input.length (pending.take block).length
      (pending.take block)) ∈ calls ++ [(call, ⟨result, call.input.length,
        (pending.take block).length, pending.take block⟩)] :=
    List.mem_append_right _ List.mem_cons_self
  refine ⟨⟨le_rfl, le_rfl, hfits, ?_, ?_, ?_, ?_⟩, ?_, ?_⟩
  · rintro rfl
    simp at hresult
  · intro _
    exact Nat.add_pos_right _ hpositive
  · intro _
    exact ⟨_, hlast, hflags⟩
  · rintro rfl
    simp at hresult
  · intro hmore
    obtain ⟨-, hlong⟩ := hresult.resolve_left hmore
    refine .writes ?_ ?_ ?_ ⟨_, hlast, hflags⟩
    · rw [List.length_drop]
      omega
    · rw [Calls.bytesRead_snoc]
      exact hread
    · rw [Calls.bytesWritten_snoc, List.length_drop, ← hwritten]
      show calls.bytesWritten + (pending.take block).length + (pending.length - block) = _
      rw [List.length_take]
      omega
  · rintro rfl
    simp at hresult

theorem Gathering.convert (hblock : 0 < block) (hcompress : compress inputData ≠ [])
    {calls : Calls GError} {call : ConvertCall} {state : Bytes ⊕ Bytes}
    (h : Gathering compress inputData calls state) (hlegal : call.Legal inputData calls) :
    Gathering.Called compress block inputData calls call
      ((blockCompressor compress block).convert state call) := by
  have hfront : inputData.drop calls.bytesRead = call.input ++
      inputData.drop (calls.bytesRead + call.input.length) := by
    rw [← List.drop_drop]
    exact (List.prefix_append_drop hlegal.input_prefix)
  unfold blockCompressor
  dsimp only
  cases h with
  | @gathers gathered written split =>
    cases hflags : call.flags with
    | noFlags =>
      have hpositive := List.length_pos_of_ne_nil (hlegal.nonempty hflags)
      refine ⟨⟨le_rfl, Nat.le_refl _, Nat.zero_le _, ?_, ?_, ?_, ?_⟩, ?_, ?_⟩
      · intro hnoSpace
        cases hnoSpace
      · intro _
        exact hpositive
      · intro hfinished
        cases hfinished
      · intro hflushed
        cases hflushed
      · intro _
        refine .gathers ((Calls.bytesWritten_snoc _ _).trans written) ?_
        rw [Calls.bytesRead_snoc, List.append_assoc, ← hfront]
        exact split
      · intro hnoSpace
        cases hnoSpace
    | inputAtEnd =>
      have hall : gathered ++ call.input = inputData := by
        rw [hlegal.atEnd hflags]
        exact split
      dsimp only
      rw [hall]
      refine Gathering.writeBlock hblock (.gathers written split)
        (List.length_pos_of_ne_nil hcompress) ?_ (by rw [written, Nat.zero_add]) hflags
      rw [← hlegal.atEnd hflags] at hfront
      exact List.append_right_eq_self.mp hfront.symm
  | @writes pending nonempty read written atEnd =>
    have hinput : call.input = [] := by
      have hprefix := hlegal.input_prefix
      rwa [read, List.prefix_nil] at hprefix
    have hflags : call.flags = .inputAtEnd := by
      cases hflags : call.flags with
      | noFlags => exact absurd hinput (hlegal.nonempty hflags)
      | inputAtEnd => rfl
    refine Gathering.writeBlock hblock (.writes nonempty read written atEnd) nonempty ?_ written
      hflags
    rw [hinput]
    exact read

theorem gathering_of_session (hblock : 0 < block) (hcompress : compress inputData ≠ [])
    {state : Bytes ⊕ Bytes} {calls : Calls GError}
    (h : (blockCompressor compress block).Session inputData state calls) :
    Gathering compress inputData calls state := by
  induction h with
  | start => exact .gathers rfl rfl
  | call _ legal goesOn ih =>
    apply (ih.convert hblock hcompress legal).goesOn
    intro hfinished
    rw [hfinished] at goesOn
    simp at goesOn

/-- A converter that gathers and writes keeps the contract, for every input that is compressed to
something. -/
theorem blockCompressor_contract (hblock : 0 < block) (hcompress : compress inputData ≠ []) :
    (blockCompressor compress block).Contract inputData where
  keeps := fun _ _ _ hsession hlegal =>
    ((gathering_of_session hblock hcompress hsession).convert hblock hcompress hlegal).keeps
  enoughSpace := by
    refine ⟨block, fun _ _ _ hsession hlegal hroom hnoSpace => ?_⟩
    have hcalled := (gathering_of_session hblock hcompress hsession).convert hblock hcompress hlegal
    exact absurd (hcalled.space hnoSpace) (Nat.lt_asymm hroom)
  finite := by
    refine ⟨(compress inputData).length, fun _ calls hsession => ?_⟩
    cases gathering_of_session hblock hcompress hsession with
    | gathers written _ => omega
    | writes _ _ written _ => omega

end Blocks

/-- One byte in gzip format. -/
def gzipOfByte : Bytes :=
  [0x1f, 0x8b, 8, 0, 0, 0, 0, 0, 2, 3, 0x4b, 4, 0, 0x43, 0xbe, 0xb7, 0xe8, 1, 0, 0, 0]

/-- The first call takes the byte in, the second one has too little room for a block, and the last
three ones write the 21 bytes. -/
theorem gzipCompress_completes_oneByte :
    (∀ state, Reaches (compressRound (blockCompressor (fun _ => gzipOfByte) 8) (fun _ => 255) [97])
        (GzipState.start (blockCompressor (fun _ => gzipOfByte) 8) (fun _ => 255) [97]) state →
      state.Within [97] ∧
        (state.allocatedSpace - state.totalBytesWritten ≠ 0 →
          ((state.called (blockCompressor (fun _ => gzipOfByte) 8) [97]).advance
            (state.conversion (blockCompressor (fun _ => gzipOfByte) 8) [97])).Within [97])) ∧
    ∃ fuel outcome,
      emerGzipCompress (blockCompressor (fun _ => gzipOfByte) 8) (fun _ => 255) [97] fuel =
        some outcome ∧
      Completes [97] outcome :=
  gzipCompress_completes (blockCompressor (fun _ => gzipOfByte) 8) (fun _ => 255) [97]
    (blockCompressor_contract (by decide) (by decide))

example : (emerGzipCompress (blockCompressor (fun _ => gzipOfByte) 8) (fun _ => 255) [97] 6).map
    (fun outcome => (outcome.1, outcome.2.map fun call => (call.1.flags, call.2.result))) =
    some (.ok ⟨some gzipOfByte, 21⟩, [(.noFlags, .converted), (.inputAtEnd, .error .noSpace),
      (.inputAtEnd, .converted), (.inputAtEnd, .converted), (.inputAtEnd, .finished)]) := by
  decide

end EventRecorder
