import EventRecorder.Aggregate.TallyIteration
import EventRecorder.Aggregate.TallySums

/-!
# The byte order of payloads in the tally

A payload is stored as the bytes that it has in memory, in the byte order of the machine, but what
is read back is taken for little-endian data and swapped on a big-endian machine.  The persistent
cache swaps on both ways instead.
-/

namespace EventRecorder

open Theory EmerAggregateTally

/-! ## 1. What a payload's way through the tally is for -/

/-- The call stores a row, and from then on every iteration that visits the row, over whatever else
the table holds, hands the payload over to its callback. -/
structure PayloadSurvives (glib : VariantLibrary) (order : ByteOrder) (increment : TallyIncrement)
    (payload : GVariant) : Prop where
  stored : ∀ tally : EmerAggregateTally, ∃ after, tally.storeEvent increment = .ok after ∧
    ∃ row ∈ after.rows, row.key = increment.key
  handedOver : ∀ (tally : EmerAggregateTally) (σ : Type)
    (func : σ → TallyIterArgs → EmerTallyIterResult × σ) (delete : Bool) (query : TallyQuery)
    (select : SelectOrder) (tallyType : EmerTallyType) (datetime : GDateTime) (state : σ),
    List.Forall₂ (fun row args => row.key = increment.key → args.payload = some payload)
      (visitedRows glib order func (query.matching select tallyType datetime tally) state)
      (query.run glib order (recording func) delete select tallyType datetime (state, [])
        tally).2.2.2

/-! ## 2. What is read back -/

section PayloadOrder

variable {glib : VariantLibrary} {order : ByteOrder}

/-- The calls to a callback are those for the rows that are visited. -/
theorem TallyQuery.calls_eq {σ : Type*} {func : σ → TallyIterArgs → EmerTallyIterResult × σ}
    {delete : Bool} (query : TallyQuery) (select : SelectOrder) (tallyType : EmerTallyType)
    (datetime : GDateTime) (state : σ) (tally : EmerAggregateTally) :
    (query.run glib order (recording func) delete select tallyType datetime (state, [])
        tally).2.2.2 =
      (visitedRows glib order func (query.matching select tallyType datetime tally) state).map
        (rowArgs glib order) := by
  rw [TallyQuery.run_eq]
  dsimp only
  rw [apply_ite Prod.snd, apply_ite Prod.snd, ite_self, iterRows_recording]

/-- The payload of a row is the one stored, in little-endian order. -/
theorem payload_rowArgs (hnonempty : NormalFormNonempty glib) {increment : TallyIncrement}
    (hstorable : increment.IsStorable glib) {row : TallyRow} (hkey : row.key = increment.key) :
    (rowArgs glib order row).payload = increment.payload.map (swapBytesIfBigEndian glib order) := by
  show columnToVariant glib order row.key.payload = _
  rw [hkey, increment.key_eq]
  exact columnToVariant_payload hnonempty order hstorable

theorem swapBytesIfBigEndian_eq_self_iff (payload : GVariant) :
    swapBytesIfBigEndian glib order payload = payload ↔
      order = .little ∨ glib.byteswap payload = payload := by
  cases order with
  | little => exact iff_of_true rfl (.inl rfl)
  | big => simp [swapBytesIfBigEndian]

/-- **A payload survives the tally exactly on a little-endian machine, or when it has no number that
swapping the bytes would change.** -/
theorem payloadSurvives_iff (hnonempty : NormalFormNonempty glib) {increment : TallyIncrement}
    (hstorable : increment.IsStorable glib) {payload : GVariant}
    (hpayload : increment.payload = some payload) :
    PayloadSurvives glib order increment payload ↔
      order = .little ∨ glib.byteswap payload = payload := by
  have hread : ∀ row : TallyRow, row.key = increment.key →
      (rowArgs glib order row).payload = some (swapBytesIfBigEndian glib order payload) := by
    intro row hkey
    rw [payload_rowArgs hnonempty hstorable hkey, hpayload]
    rfl
  rw [← swapBytesIfBigEndian_eq_self_iff]
  constructor
  · intro h
    -- the row is alone in a table, and an iteration over its own period visits it
    have hcalls := h.handedOver ⟨[⟨1, increment.key, .integer 0⟩]⟩ _ collect false .iter .byRowId
      increment.tallyType increment.datetime []
    have hmatching : TallyQuery.iter.matching .byRowId increment.tallyType increment.datetime
        ⟨[⟨1, increment.key, .integer 0⟩]⟩ = [⟨1, increment.key, .integer 0⟩] :=
      List.filter_cons_of_pos (decide_eq_true rfl)
    have hvisited : visitedRows glib order collect [⟨1, increment.key, .integer 0⟩] [] =
        [⟨1, increment.key, .integer 0⟩] := rfl
    rw [TallyQuery.calls_eq, hmatching, hvisited, List.map_singleton] at hcalls
    have hhanded := (List.forall₂_cons.mp hcalls).1 rfl
    rw [hread _ rfl] at hhanded
    exact Option.some.inj hhanded
  · intro hself
    constructor
    · intro tally
      rw [storeEvent_of_storable hstorable]
      exact ⟨_, rfl, List.mem_map.mp ((mem_map_key_upsert _ _ _ _ _).mpr (.inr rfl))⟩
    · intro tally σ func delete query select tallyType datetime state
      rw [TallyQuery.calls_eq, List.forall₂_map_right_iff]
      apply List.forall₂_same.mpr
      intro row _ hkey
      rw [hread row hkey, hself]

end PayloadOrder

/-- A stored number comes back with its bytes reversed on a big-endian machine. -/
theorem boxed_not_survives :
    ¬ PayloadSurvives boxedNumbers .big (sampleCall .dailyEvents (some (boxed 1)) 1 22)
      (boxed 1) := by
  intro h
  have hcalls := h.handedOver
    ⟨[⟨1, (sampleCall .dailyEvents (some (boxed 1)) 1 22).key, .integer 1⟩]⟩ _ collect false .iter
    .byRowId .dailyEvents ⟨2021, 9, 22⟩ []
  have hhanded := (List.forall₂_cons.mp hcalls).1 rfl
  exact absurd hhanded (by decide)

theorem payloadSurvives_iff_boxed :
    PayloadSurvives boxedNumbers .little (sampleCall .dailyEvents (some (boxed 1)) 1 22)
      (boxed 1) :=
  (payloadSurvives_iff normalFormNonempty_boxedNumbers
    ⟨by decide, by decide, by decide, by decide⟩ rfl).mpr (.inl rfl)

end EventRecorder
