import EventRecorder.CircularFile.Basic
import EventRecorder.Theory.Loop

/-!
# Cutting a buffer behind its last element

The loop of `get_trimmed_size` goes from one length to the next.  Position and length are added in
a `guint64`, and a length that makes the sum wrap sends the loop back, or to the middle of what it
has just read.  Here the condition of the loop wraps as well, so that all sizes are covered.
-/

namespace EventRecorder

open Theory

namespace EmerCircularFile

variable (buffer : Bytes) (numBytes : Nat)

/-! ## 1. The loop -/

/-- The condition of the loop. -/
def TrimsOn (currPos : Nat) : Prop := (currPos + sizeofElemSize) % 2 ^ 64 < numBytes

instance (currPos : Nat) : Decidable (TrimsOn numBytes currPos) :=
  inferInstanceAs (Decidable ((currPos + sizeofElemSize) % 2 ^ 64 < numBytes))

/-- The end of the element at a position, in a `guint64`. -/
def nextPos (currPos : Nat) : Nat :=
  (currPos + sizeofElemSize + elemSizeAt buffer currPos) % 2 ^ 64

/-- A round of the loop of `get_trimmed_size`. -/
def trimRound (currPos : Nat) : Nat ⊕ Nat :=
  if TrimsOn numBytes currPos then
    if nextPos buffer currPos > numBytes then .inr currPos
    else .inl (nextPos buffer currPos)
  else .inr currPos

variable {buffer numBytes} {currPos next : Nat}

theorem trimRound_eq_inl_iff :
    trimRound buffer numBytes currPos = .inl next ↔
      TrimsOn numBytes currPos ∧ nextPos buffer currPos ≤ numBytes ∧
        next = nextPos buffer currPos := by
  unfold trimRound
  by_cases htrims : TrimsOn numBytes currPos
  · rw [if_pos htrims]
    by_cases hfits : nextPos buffer currPos > numBytes
    · rw [if_pos hfits]
      simp [hfits]
    · rw [if_neg hfits]
      simp [htrims, Nat.not_lt.mp hfits, eq_comm]
  · rw [if_neg htrims]
    simp [htrims]

theorem eq_of_trimRound_eq_inr {size : Nat} (h : trimRound buffer numBytes currPos = .inr size) :
    size = currPos := by
  unfold trimRound at h
  split_ifs at h
  · exact (Sum.inr.inj h).symm
  · exact (Sum.inr.inj h).symm

/-- Where eight bytes more do not wrap, the loop is that of `getTrimmedSize`. -/
theorem trimmedSizeFrom_eq_loop (hnumBytes : numBytes + sizeofElemSize < 2 ^ 64) {fuel : Nat}
    (hpos : currPos ≤ numBytes) :
    trimmedSizeFrom buffer numBytes fuel currPos =
      loop (trimRound buffer numBytes) fuel currPos := by
  induction fuel generalizing currPos with
  | zero => rfl
  | succ fuel ih =>
    have hwraps : TrimsOn numBytes currPos ↔ currPos + sizeofElemSize < numBytes := by
      unfold TrimsOn
      unfold sizeofElemSize at *
      omega
    rw [trimmedSizeFrom, loop, trimRound]
    by_cases htrims : TrimsOn numBytes currPos
    · rw [if_pos htrims, if_pos (hwraps.mp htrims)]
      simp only
      by_cases hfits : nextPos buffer currPos > numBytes
      · rw [if_pos hfits]
        exact if_pos hfits
      · rw [if_neg hfits]
        exact (if_neg hfits).trans (ih (Nat.not_lt.mp hfits))
    · rw [if_neg htrims, if_neg fun h => htrims (hwraps.mpr h)]

theorem getTrimmedSize_eq_loop (hnumBytes : numBytes + sizeofElemSize < 2 ^ 64) :
    getTrimmedSize buffer numBytes = loop (trimRound buffer numBytes) (numBytes + 1) 0 :=
  trimmedSizeFrom_eq_loop hnumBytes (Nat.zero_le _)

/-! ## 2. Chains of pairs -/

variable (buffer numBytes)

/-- Between two positions stands a length with as many bytes behind it, all of them in the buffer,
and the buffer goes on behind the length. -/
def CompletePair (currPos next : Nat) : Prop :=
  currPos + sizeofElemSize < numBytes ∧
    next = currPos + sizeofElemSize + elemSizeAt buffer currPos ∧ next ≤ numBytes

/-- A chain of complete pairs from the start of the buffer ends at the position. -/
def PairsEndAt : Nat → Prop := Relation.ReflTransGen (CompletePair buffer numBytes) 0

/-- At no end of a chain where the loop goes on is there a length that makes the sum wrap. -/
def NoLengthWraps : Prop :=
  ∀ currPos, PairsEndAt buffer numBytes currPos → TrimsOn numBytes currPos →
    currPos + sizeofElemSize + elemSizeAt buffer currPos < 2 ^ 64

/-- What trimming is for: it ends, it gets on with every round, it reads within the buffer, and
what it keeps is the longest chain. -/
structure TrimsAtBoundary : Prop where
  gets_on : ∀ currPos next, Reaches (trimRound buffer numBytes) 0 currPos →
    trimRound buffer numBytes currPos = .inl next → currPos < next
  reads_within : ∀ currPos, Reaches (trimRound buffer numBytes) 0 currPos →
    TrimsOn numBytes currPos → currPos + sizeofElemSize ≤ numBytes
  cuts : ∃ fuel size, loop (trimRound buffer numBytes) fuel 0 = some size ∧ size ≤ numBytes ∧
    PairsEndAt buffer numBytes size ∧
    ∀ currPos, PairsEndAt buffer numBytes currPos → currPos ≤ size

variable {buffer numBytes}

theorem PairsEndAt.le (h : PairsEndAt buffer numBytes currPos) : currPos ≤ numBytes := by
  induction h with
  | refl => exact Nat.zero_le _
  | tail _ hpair _ => exact hpair.2.2

theorem CompletePair.lt (h : CompletePair buffer numBytes currPos next) : currPos < next := by
  have hnext := h.2.1
  unfold sizeofElemSize at hnext
  omega

/-- The loop follows complete pairs. -/
theorem CompletePair.trimRound (hnumBytes : numBytes < 2 ^ 64)
    (h : CompletePair buffer numBytes currPos next) :
    trimRound buffer numBytes currPos = .inl next := by
  obtain ⟨hroom, hnext, hle⟩ := h
  have hpos : nextPos buffer currPos = next := by
    rw [hnext]
    exact Nat.mod_eq_of_lt (by omega)
  apply trimRound_eq_inl_iff.mpr
  refine ⟨?_, hpos.trans_le hle, hpos.symm⟩
  unfold TrimsOn
  rw [Nat.mod_eq_of_lt (by omega)]
  exact hroom

theorem PairsEndAt.reaches (hnumBytes : numBytes < 2 ^ 64)
    (h : PairsEndAt buffer numBytes currPos) : Reaches (trimRound buffer numBytes) 0 currPos := by
  induction h with
  | refl => exact .refl
  | tail _ hpair ih => exact ih.tail (hpair.trimRound hnumBytes)

/-- Chains that end at different positions: one goes on from the other. -/
theorem PairsEndAt.le_of_stuck {last : Nat} (h : PairsEndAt buffer numBytes currPos)
    (hlast : PairsEndAt buffer numBytes last)
    (hstuck : ∀ next, ¬ CompletePair buffer numBytes last next) : currPos ≤ last := by
  have hunique : Relator.RightUnique (CompletePair buffer numBytes) := by
    intro pos next next' hnext hnext'
    exact hnext.2.1.trans hnext'.2.1.symm
  cases Relation.ReflTransGen.total_of_right_unique hunique hlast h with
  | inl hbeyond =>
    cases hbeyond.cases_head with
    | inl heq => exact heq.ge
    | inr hmore =>
      obtain ⟨next, hpair, -⟩ := hmore
      exact absurd hpair (hstuck next)
  | inr hbefore =>
    clear h hstuck hlast hunique
    induction hbefore with
    | refl => exact le_rfl
    | tail _ hpair ih => exact ih.trans hpair.lt.le

/-! ## 3. Lengths that do not wrap -/

theorem NoLengthWraps.completePair (h : NoLengthWraps buffer numBytes)
    (hchain : PairsEndAt buffer numBytes currPos)
    (hround : trimRound buffer numBytes currPos = .inl next) :
    CompletePair buffer numBytes currPos next := by
  obtain ⟨htrims, hle, hnext⟩ := trimRound_eq_inl_iff.mp hround
  have hsum := h currPos hchain htrims
  unfold TrimsOn at htrims
  rw [Nat.mod_eq_of_lt (by omega)] at htrims
  have hpos : nextPos buffer currPos = _ := Nat.mod_eq_of_lt hsum
  exact ⟨htrims, hnext.trans hpos, hnext.trans_le hle⟩

theorem NoLengthWraps.pairsEndAt (h : NoLengthWraps buffer numBytes)
    (hreach : Reaches (trimRound buffer numBytes) 0 currPos) :
    PairsEndAt buffer numBytes currPos :=
  hreach.invariant (fun _ _ hchain hround => hchain.tail (h.completePair hchain hround)) .refl

/-- Each round leaves less of the buffer, and the last one is at the end of the longest chain. -/
theorem NoLengthWraps.exists_size (hnumBytes : numBytes < 2 ^ 64)
    (h : NoLengthWraps buffer numBytes) :
    ∃ size, loop (trimRound buffer numBytes) (numBytes + 1) 0 = some size ∧ size ≤ numBytes ∧
      PairsEndAt buffer numBytes size ∧
      ∀ currPos, PairsEndAt buffer numBytes currPos → currPos ≤ size := by
  have hends : ∃ size, loop (trimRound buffer numBytes) (numBytes + 1) 0 = some size := by
    apply exists_loop_of_measure (fun currPos => numBytes - currPos) ?_
      (Relation.ReflTransGen.refl : PairsEndAt buffer numBytes 0) (by omega)
    intro currPos next hchain hround
    have hpair := h.completePair hchain hround
    have hlt := hpair.lt
    have hle := hpair.2.2
    exact ⟨hchain.tail hpair, by omega⟩
  obtain ⟨size, hsize⟩ := hends
  obtain ⟨last, hreach, hlast⟩ := exists_reaches_of_loop hsize
  rw [eq_of_trimRound_eq_inr hlast] at hsize
  have hchain := h.pairsEndAt hreach
  refine ⟨last, hsize, hchain.le, hchain, fun currPos hcurrPos => ?_⟩
  apply hcurrPos.le_of_stuck hchain
  intro next hpair
  rw [hpair.trimRound hnumBytes] at hlast
  cases hlast

theorem NoLengthWraps.trimsAtBoundary (hnumBytes : numBytes < 2 ^ 64)
    (h : NoLengthWraps buffer numBytes) : TrimsAtBoundary buffer numBytes where
  gets_on := fun _ _ hreach hround => (h.completePair (h.pairsEndAt hreach) hround).lt
  reads_within := by
    intro currPos hreach htrims
    have hsum := h currPos (h.pairsEndAt hreach) htrims
    unfold TrimsOn at htrims
    rw [Nat.mod_eq_of_lt (by omega)] at htrims
    exact htrims.le
  cuts := ⟨numBytes + 1, h.exists_size hnumBytes⟩

/-- Resizing does not hang then. -/
theorem NoLengthWraps.getTrimmedSize (hnumBytes : numBytes + sizeofElemSize < 2 ^ 64)
    (h : NoLengthWraps buffer numBytes) :
    ∃ size, getTrimmedSize buffer numBytes = some size ∧ PairsEndAt buffer numBytes size ∧
      ∀ currPos, PairsEndAt buffer numBytes currPos → currPos ≤ size := by
  obtain ⟨size, hsize, -, hlongest⟩ := h.exists_size (by omega)
  rw [← getTrimmedSize_eq_loop hnumBytes] at hsize
  exact ⟨size, hsize, hlongest⟩

/-! ## 4. A length that wraps -/

theorem elemSizeAt_lt (buffer : Bytes) (currPos : Nat) : elemSizeAt buffer currPos < 2 ^ 64 := by
  have hlength : ((buffer.drop currPos).take sizeofElemSize).length ≤ 8 := List.length_take_le _ _
  have hpow := Nat.pow_le_pow_right (show 0 < 256 by decide) hlength
  have hlt := ofLittleEndian_lt ((buffer.drop currPos).take sizeofElemSize)
  rw [elemSizeAt]
  omega

/-- Where the sum wraps, the loop goes on to somewhere in front of the next eight bytes. -/
theorem trimRound_of_wraps (hnumBytes : numBytes < 2 ^ 64)
    (hroom : currPos + sizeofElemSize < numBytes)
    (hwraps : 2 ^ 64 ≤ currPos + sizeofElemSize + elemSizeAt buffer currPos) :
    ∃ next, trimRound buffer numBytes currPos = .inl next := by
  have hlength := elemSizeAt_lt buffer currPos
  have hnext : nextPos buffer currPos < currPos + sizeofElemSize := by
    unfold nextPos
    omega
  refine ⟨nextPos buffer currPos, trimRound_eq_inl_iff.mpr ⟨?_, by omega, rfl⟩⟩
  unfold TrimsOn
  rw [Nat.mod_eq_of_lt (by omega)]
  exact hroom

theorem TrimsAtBoundary.le_of_reaches (h : TrimsAtBoundary buffer numBytes)
    (hcurr : Reaches (trimRound buffer numBytes) 0 currPos)
    (hreach : Reaches (trimRound buffer numBytes) currPos next) : currPos ≤ next := by
  induction hreach with
  | refl => exact le_rfl
  | tail hreach hround ih => exact ih.trans (h.gets_on _ _ (hcurr.trans hreach) hround).le

theorem TrimsAtBoundary.noLengthWraps (hnumBytes : numBytes < 2 ^ 64)
    (h : TrimsAtBoundary buffer numBytes) : NoLengthWraps buffer numBytes := by
  intro currPos hchain htrims
  by_contra hwraps
  have hwraps' := Nat.not_lt.mp hwraps
  have hreach := hchain.reaches hnumBytes
  have hwithin := h.reads_within currPos hreach htrims
  have hroom : currPos + sizeofElemSize < numBytes := by
    unfold TrimsOn at htrims
    rwa [Nat.mod_eq_of_lt (by omega)] at htrims
  -- the loop goes on from a position where the chain ends
  obtain ⟨next, hround⟩ := trimRound_of_wraps hnumBytes hroom hwraps'
  have hforward := h.gets_on currPos next hreach hround
  have hstuck : ∀ next, ¬ CompletePair buffer numBytes currPos next := by
    intro next hpair
    have hnext := hpair.2.1
    have hle := hpair.2.2
    omega
  obtain ⟨fuel, size, hsize, -, hchainSize, -⟩ := h.cuts
  have hbefore := hchainSize.le_of_stuck hchain hstuck
  -- and it never comes back to that position
  obtain ⟨last, hreachLast, hleaves⟩ := exists_reaches_of_loop hsize
  have hlast := eq_of_trimRound_eq_inr hleaves
  have hbeyond := h.le_of_reaches (hreach.tail hround)
    ((hreach.tail hround).to_last hreachLast hleaves)
  omega

/-- **A buffer is cut behind its longest chain of complete pairs exactly if no length at the end of
a chain wraps the sum of position and length.** -/
theorem trimsAtBoundary_iff (buffer : Bytes) {numBytes : Nat} (hnumBytes : numBytes < 2 ^ 64) :
    TrimsAtBoundary buffer numBytes ↔ NoLengthWraps buffer numBytes :=
  ⟨fun h => h.noLengthWraps hnumBytes, fun h => h.trimsAtBoundary hnumBytes⟩

/-- Payloads of one and of two bytes, and the start of a payload of four. -/
def truncatedPairs : Bytes :=
  [1, 0, 0, 0, 0, 0, 0, 0, 7] ++ [2, 0, 0, 0, 0, 0, 0, 0, 8, 9] ++ [4, 0, 0, 0, 0, 0, 0, 0, 5]

theorem noLengthWraps_truncatedPairs : NoLengthWraps truncatedPairs 28 := by
  intro currPos hchain htrims
  have hcurr : currPos = 0 ∨ currPos = 9 ∨ currPos = 19 := by
    clear htrims
    induction hchain with
    | refl => exact .inl rfl
    | tail _ hpair ih =>
      rcases ih with hzero | hnine | hlast
      · rw [hzero] at hpair
        exact .inr (.inl hpair.2.1)
      · rw [hnine] at hpair
        exact .inr (.inr hpair.2.1)
      · -- the third pair is not complete
        rw [hlast] at hpair
        have hend := hpair.2.2
        rw [hpair.2.1] at hend
        exact absurd hend (by decide)
  rcases hcurr with hzero | hnine | hlast
  · rw [hzero]
    decide
  · rw [hnine]
    decide
  · rw [hlast]
    decide

theorem trimsAtBoundary_truncatedPairs : TrimsAtBoundary truncatedPairs 28 :=
  (trimsAtBoundary_iff truncatedPairs (by decide)).mpr noLengthWraps_truncatedPairs

example : getTrimmedSize truncatedPairs 28 = some 19 := by decide

/-- The length `2 ^ 64 - 8` leads from the start of the buffer back to it. -/
theorem not_trimsAtBoundary_wrapping :
    ¬ TrimsAtBoundary [248, 255, 255, 255, 255, 255, 255, 255, 0] 9 ∧
      ∀ fuel, loop (trimRound [248, 255, 255, 255, 255, 255, 255, 255, 0] 9) fuel 0 = none := by
  have hround : trimRound [248, 255, 255, 255, 255, 255, 255, 255, 0] 9 0 = .inl 0 := by decide
  constructor
  · intro h
    exact absurd (h.gets_on 0 0 .refl hround) (Nat.lt_irrefl 0)
  · exact loop_eq_none_of_stuck hround

/-- So opening the file with another maximum size never returns. -/
example : getTrimmedSize [248, 255, 255, 255, 255, 255, 255, 255, 0] 9 = none := by decide

end EmerCircularFile

end EventRecorder
