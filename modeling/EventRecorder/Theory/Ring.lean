import Mathlib

/-!
# Ring — a list of cells used as a ring of fixed capacity

`RingHolds M cells p xs` says that `xs` lies in the ring of capacity `M` from position `p` onwards,
continuing at the start once the capacity is reached.  Positions count modulo `M`, so they may run
past it.  The cells beyond the part in use may be missing: a file that has never been filled is
shorter than its capacity.
-/

namespace EventRecorder.Theory

variable {α : Type*}

/-! ## 1. Writing at an offset -/

/-- The cells after writing `xs` at `pos`.  Writing nothing changes nothing, and a gap before the
written part is filled. -/
def writeAt (fill : α) (cells : List α) (pos : Nat) (xs : List α) : List α :=
  if xs = [] then cells
  else cells.take pos ++ List.replicate (pos - cells.length) fill ++ xs ++
    cells.drop (pos + xs.length)

@[simp] theorem writeAt_nil (fill : α) (cells : List α) (pos : Nat) :
    writeAt fill cells pos [] = cells := if_pos rfl

theorem length_writeAt (fill : α) (cells : List α) (pos : Nat) (xs : List α) :
    (writeAt fill cells pos xs).length =
      if xs = [] then cells.length else max cells.length (pos + xs.length) := by
  unfold writeAt
  split
  · rfl
  · simp only [List.length_append, List.length_take, List.length_replicate, List.length_drop]
    omega

theorem length_le_length_writeAt (fill : α) (cells : List α) (pos : Nat) (xs : List α) :
    cells.length ≤ (writeAt fill cells pos xs).length := by
  rw [length_writeAt]
  split
  · exact le_refl _
  · exact le_max_left _ _

theorem length_writeAt_le (fill : α) {cells : List α} {pos : Nat} {xs : List α} {M : Nat}
    (hcells : cells.length ≤ M) (hend : pos + xs.length ≤ M) :
    (writeAt fill cells pos xs).length ≤ M := by
  rw [length_writeAt]
  split
  · exact hcells
  · exact max_le hcells hend

theorem le_length_writeAt (fill : α) (cells : List α) (pos : Nat) {xs : List α}
    (hxs : xs ≠ []) : pos + xs.length ≤ (writeAt fill cells pos xs).length := by
  rw [length_writeAt, if_neg hxs]
  exact le_max_right _ _

theorem length_padded_prefix (fill : α) (cells : List α) (pos : Nat) :
    (cells.take pos ++ List.replicate (pos - cells.length) fill).length = pos := by
  simp only [List.length_append, List.length_take, List.length_replicate]
  omega

/-- The written part reads back. -/
theorem getElem?_writeAt_mem (fill : α) (cells : List α) (pos : Nat) {xs : List α} {j : Nat}
    (hj : j < xs.length) : (writeAt fill cells pos xs)[pos + j]? = xs[j]? := by
  have hxs : xs ≠ [] := by rintro rfl; simp at hj
  have hpad := length_padded_prefix fill cells pos
  -- the part in front of `xs`, filled up where the cells end early, is `pos` long
  rw [writeAt, if_neg hxs, List.getElem?_append_left (by rw [List.length_append, hpad]; omega),
    List.getElem?_append_right (by omega), hpad, Nat.add_sub_cancel_left]

/-- A cell that exists and lies outside the written part is kept. -/
theorem getElem?_writeAt_of_not_mem (fill : α) {cells : List α} {pos : Nat} {xs : List α}
    {i : Nat} (hi : i < cells.length) (hout : i < pos ∨ pos + xs.length ≤ i) :
    (writeAt fill cells pos xs)[i]? = cells[i]? := by
  unfold writeAt
  split
  · rfl
  -- in front of the written part, or behind it
  · rcases hout with hlt | hge
    · rw [List.append_assoc, List.append_assoc,
        List.getElem?_append_left (by rw [List.length_take]; omega), List.getElem?_take_of_lt hlt]
    · have hpad := length_padded_prefix fill cells pos
      rw [List.getElem?_append_right (by rw [List.length_append, hpad]; exact hge),
        List.length_append, hpad, List.getElem?_drop, Nat.add_sub_cancel' hge]

theorem writeAt_zero (fill : α) (cells xs : List α) :
    writeAt fill cells 0 xs = xs ++ cells.drop xs.length := by
  unfold writeAt
  split
  · rename_i hnil
    rw [hnil, List.length_nil, List.drop_zero, List.nil_append]
  · simp

/-- Writing up to the very end replaces everything from the position on. -/
theorem writeAt_to_end (fill : α) {cells : List α} {pos : Nat} {xs : List α}
    (hend : pos + xs.length = cells.length) :
    writeAt fill cells pos xs = cells.take pos ++ xs := by
  unfold writeAt
  split
  · rename_i hnil
    rw [hnil, List.length_nil, Nat.add_zero] at hend
    rw [hnil, List.append_nil, hend, List.take_length]
  · rw [hend, List.drop_length, List.append_nil, show pos - cells.length = 0 by omega,
      List.replicate_zero, List.append_nil]

/-! ## 2. What a ring holds -/

/-- `xs` lies in the ring from position `p` onwards. -/
def RingHolds (M : Nat) (cells : List α) (p : Nat) (xs : List α) : Prop :=
  ∀ i, i < xs.length → cells[(p + i) % M]? = xs[i]?

variable {M p : Nat} {cells xs ys : List α}

@[simp] theorem ringHolds_nil (M p : Nat) (cells : List α) : RingHolds M cells p [] := by
  intro i hi
  simp at hi

theorem ringHolds_append :
    RingHolds M cells p (xs ++ ys) ↔
      RingHolds M cells p xs ∧ RingHolds M cells (p + xs.length) ys := by
  constructor
  · intro h
    refine ⟨fun i hi => ?_, fun i hi => ?_⟩
    · rw [h i (by rw [List.length_append]; omega), List.getElem?_append_left hi]
    · rw [Nat.add_assoc, h (xs.length + i) (by rw [List.length_append]; omega),
        List.getElem?_append_right (by omega), Nat.add_sub_cancel_left]
  · rintro ⟨hxs, hys⟩ i hi
    rw [List.length_append] at hi
    by_cases hlt : i < xs.length
    · rw [hxs i hlt, List.getElem?_append_left hlt]
    · have hy := hys (i - xs.length) (by omega)
      rw [Nat.add_assoc, Nat.add_sub_cancel' (by omega)] at hy
      rw [hy, List.getElem?_append_right (by omega)]

/-- Only the position modulo the capacity matters. -/
theorem ringHolds_congr {q : Nat} (hmod : p % M = q % M) :
    RingHolds M cells p xs ↔ RingHolds M cells q xs := by
  have hpos : ∀ i, (p + i) % M = (q + i) % M := fun i => Nat.ModEq.add_right i hmod
  simp only [RingHolds, hpos]

/-- Up to the end of the ring the contents are contiguous. -/
theorem RingHolds.take_drop (h : RingHolds M cells p xs) (hend : p + xs.length ≤ M) :
    (cells.drop p).take xs.length = xs := by
  apply List.ext_getElem?
  intro i
  by_cases hi : i < xs.length
  · rw [List.getElem?_take_of_lt hi, List.getElem?_drop, ← h i hi, Nat.mod_eq_of_lt (by omega)]
  · rw [List.getElem?_eq_none (by rw [List.length_take]; omega),
      List.getElem?_eq_none (by omega)]

/-- Contents that start at the first cell are the cells. -/
theorem ringHolds_self (hxs : xs.length ≤ M) : RingHolds M xs 0 xs := by
  intro i hi
  rw [Nat.zero_add, Nat.mod_eq_of_lt (by omega)]

/-- The whole contents, read in two parts: up to the end of the ring, and on from its start. -/
theorem RingHolds.unroll (h : RingHolds M cells p xs) (hp : p ≤ M) (hxs : xs.length ≤ M) :
    (cells.drop p).take (min xs.length (M - p)) = xs.take (min xs.length (M - p)) ∧
      cells.take (xs.length - min xs.length (M - p)) = xs.drop (min xs.length (M - p)) := by
  set n := min xs.length (M - p) with hn
  have hlenTake : (xs.take n).length = n := by rw [List.length_take]; omega
  have hlenDrop : (xs.drop n).length = xs.length - n := List.length_drop
  have hring := h
  rw [← List.take_append_drop n xs] at hring
  obtain ⟨hend, hstart⟩ := ringHolds_append.mp hring
  constructor
  · have hread := hend.take_drop (by omega)
    rwa [hlenTake] at hread
  -- the second part is empty unless the first one has reached the end
  · by_cases hround : xs.length = n
    · rw [hround, Nat.sub_self, List.take_zero, List.drop_of_length_le (by omega)]
    · have hzero : RingHolds M cells 0 (xs.drop n) := by
        apply (ringHolds_congr _).mp hstart
        rw [hlenTake, show p + n = M by omega, Nat.mod_self, Nat.zero_mod]
      have hread := hzero.take_drop (by omega)
      rwa [List.drop_zero, hlenDrop] at hread

/-! ## 3. Writing into the free part of a ring -/

theorem add_mod_left_injective {r s : Nat} (hr : r < M) (hs : s < M)
    (h : (p + r) % M = (p + s) % M) : r = s :=
  Nat.ModEq.eq_of_lt_of_lt (Nat.ModEq.add_left_cancel' p h) hr hs

/-- Writing to cells beyond the contents of the ring keeps them. -/
theorem RingHolds.writeAt_free (fill : α) {pos : Nat} (h : RingHolds M cells p xs)
    (hxs : xs.length ≤ M)
    (hfree : ∀ j, j < ys.length → ∃ r, xs.length ≤ r ∧ r < M ∧ pos + j = (p + r) % M) :
    RingHolds M (writeAt fill cells pos ys) p xs := by
  intro i hi
  have hcell := h i hi
  -- the ring holds something at this position, so the cell exists
  have hin : (p + i) % M < cells.length := by
    by_contra hout
    rw [List.getElem?_eq_none (by omega), List.getElem?_eq_getElem hi] at hcell
    exact absurd hcell (by simp)
  rw [getElem?_writeAt_of_not_mem fill hin ?_, hcell]
  -- a written cell is `r` places behind `p` with `r` beyond the contents, and so is none of theirs
  by_contra hmem
  obtain ⟨r, hle, hlt, hr⟩ := hfree ((p + i) % M - pos) (by omega)
  rw [Nat.add_sub_cancel' (by omega)] at hr
  have : i = r := add_mod_left_injective (by omega) hlt hr
  omega

/-- What a contiguous write puts into the ring. -/
theorem ringHolds_writeAt (fill : α) (hend : p + xs.length ≤ M) :
    RingHolds M (writeAt fill cells p xs) p xs := by
  intro i hi
  rw [Nat.mod_eq_of_lt (by omega), getElem?_writeAt_mem fill cells p hi]

/-! ## 4. A write that goes round the end -/

/-- The cells that the part written from the tail to the end of the ring covers. -/
theorem free_of_tail {size n : Nat} (hn : (p + size) % M + n ≤ M)
    (hfit : size + n ≤ M) {j : Nat} (hj : j < n) :
    ∃ r, size ≤ r ∧ r < M ∧ (p + size) % M + j = (p + r) % M := by
  refine ⟨size + j, by omega, by omega, ?_⟩
  have hround : ((p + size) % M + j) % M = (p + (size + j)) % M := by
    rw [Nat.mod_add_mod, Nat.add_assoc]
  rw [← hround]
  exact (Nat.mod_eq_of_lt (by omega)).symm

/-- The cells that the part continued at the start of the ring covers. -/
theorem free_of_start {size n : Nat} (hM : 0 < M)
    (hfit : size + (M - (p + size) % M) + n ≤ M) {j : Nat} (hj : j < n) :
    ∃ r, size ≤ r ∧ r < M ∧ 0 + j = (p + r) % M := by
  have htail : (p + size) % M < M := Nat.mod_lt _ hM
  refine ⟨size + (M - (p + size) % M) + j, by omega, by omega, ?_⟩
  have hround : p + (size + (M - (p + size) % M) + j) = p + size + (M - (p + size) % M + j) := by
    omega
  rw [hround, ← Nat.mod_add_mod,
    show (p + size) % M + (M - (p + size) % M + j) = j + M by omega, Nat.add_mod_right,
    Nat.mod_eq_of_lt (by omega), Nat.zero_add]

/-- Writing `ys` behind the contents of a ring, first the part that goes round to the start and then
the part at the tail, leaves the ring holding both. -/
theorem RingHolds.write_behind (fill : α) (hM : 0 < M) (h : RingHolds M cells p xs)
    (hfit : xs.length + ys.length ≤ M) :
    RingHolds M
      (writeAt fill
        (writeAt fill cells 0 (ys.drop (min ys.length (M - (p + xs.length) % M))))
        ((p + xs.length) % M) (ys.take (min ys.length (M - (p + xs.length) % M))))
      p (xs ++ ys) := by
  set tail := (p + xs.length) % M with htail
  set n := min ys.length (M - tail) with hn
  have htailM : tail < M := Nat.mod_lt _ hM
  have hlenTake : (ys.take n).length = n := by rw [List.length_take]; omega
  have hlenDrop : (ys.drop n).length = ys.length - n := List.length_drop
  -- writing the part at the start first leaves the old contents alone
  have hstart : RingHolds M (writeAt fill cells 0 (ys.drop n)) p xs := by
    refine h.writeAt_free fill (by omega) fun j hj => free_of_start hM (n := ys.length - n) ?_ ?_
    · omega
    · omega
  refine ringHolds_append.mpr ⟨?_, ?_⟩
  · exact hstart.writeAt_free fill (by omega) fun j hj =>
      free_of_tail (n := n) (by omega) (by omega) (by omega)
  -- the new part: `n` bytes from the tail to the end, the others from the start
  · rw [ringHolds_congr (q := tail) (by rw [htail, Nat.mod_mod]), ← List.take_append_drop n ys,
      ringHolds_append, List.take_append_drop]
    refine ⟨ringHolds_writeAt fill (by omega), ?_⟩
    rw [hlenTake]
    -- either all of `ys` fits in front of the end, or the rest of it is at the start
    by_cases hround : ys.length = n
    · rw [List.drop_of_length_le (by omega)]
      exact ringHolds_nil _ _ _
    · rw [ringHolds_congr (q := 0) (by
        rw [show tail + n = M by omega, Nat.mod_self, Nat.zero_mod])]
      refine (ringHolds_writeAt fill (by omega)).writeAt_free fill (by omega) fun j hj => ?_
      refine ⟨tail + j, by omega, by omega, ?_⟩
      rw [Nat.zero_add, Nat.mod_eq_of_lt (by omega)]

/-! ## 5. Rings whose cells come into being as they are written -/

/-- The ring holds `xs` in at most `M` cells, which are all there once the contents have gone past
the end. -/
structure RingStored (M p : Nat) (cells xs : List α) : Prop where
  physical : cells.length ≤ M
  ring : RingHolds M cells p xs
  filled : p + xs.length ≤ cells.length ∨ cells.length = M

/-- Contents that are there have their cells. -/
theorem RingHolds.ringStored (h : RingHolds M cells p xs) (hphysical : cells.length ≤ M)
    (hp : p < M) (hxs : xs ≠ []) : RingStored M p cells xs := by
  refine ⟨hphysical, h, ?_⟩
  have hpos : 0 < xs.length := List.length_pos_iff.mpr hxs
  have hcell : ∀ i, i < xs.length → (p + i) % M < cells.length := by
    intro i hi
    by_contra hout
    have hnone := h i hi
    rw [List.getElem?_eq_none (by omega), List.getElem?_eq_getElem hi] at hnone
    cases hnone
  -- the last of the contents, or the last cell of the ring
  by_cases hround : p + xs.length ≤ M
  · have hlast := hcell (xs.length - 1) (by omega)
    rw [Nat.mod_eq_of_lt (by omega)] at hlast
    exact .inl (by omega)
  · have hlast := hcell (M - 1 - p) (by omega)
    rw [show p + (M - 1 - p) = M - 1 by omega, Nat.mod_eq_of_lt (by omega)] at hlast
    exact .inr (by omega)

namespace RingStored

theorem writeAt_free (fill : α) {pos : Nat} (h : RingStored M p cells xs) (hxs : xs.length ≤ M)
    (hend : pos + ys.length ≤ M)
    (hfree : ∀ j, j < ys.length → ∃ r, xs.length ≤ r ∧ r < M ∧ pos + j = (p + r) % M) :
    RingStored M p (writeAt fill cells pos ys) xs := by
  have hphysical := h.physical
  have hle := length_le_length_writeAt fill cells pos ys
  have hge := length_writeAt_le fill hphysical hend
  refine ⟨hge, h.ring.writeAt_free fill hxs hfree, ?_⟩
  rcases h.filled with hroom | hfull
  · exact .inl (by omega)
  · exact .inr (by omega)

theorem write_behind (fill : α) (hp : p < M) (h : RingStored M p cells xs)
    (hfit : xs.length + ys.length ≤ M) :
    RingStored M p
      (writeAt fill
        (writeAt fill cells 0 (ys.drop (min ys.length (M - (p + xs.length) % M))))
        ((p + xs.length) % M) (ys.take (min ys.length (M - (p + xs.length) % M))))
      (xs ++ ys) := by
  have hring := h.ring.write_behind fill (by omega) hfit
  have hphysical := h.physical
  by_cases hys : ys = []
  · subst hys
    simpa using h
  have htailM : (p + xs.length) % M < M := Nat.mod_lt _ (by omega)
  have hlenTake : (ys.take (min ys.length (M - (p + xs.length) % M))).length =
      min ys.length (M - (p + xs.length) % M) := by
    rw [List.length_take]
    omega
  have hpos : 0 < ys.length := List.length_pos_iff.mpr hys
  have htake : ys.take (min ys.length (M - (p + xs.length) % M)) ≠ [] := by
    rw [← List.length_pos_iff, hlenTake]
    omega
  set start := writeAt fill cells 0 (ys.drop (min ys.length (M - (p + xs.length) % M)))
    with hstart
  have hstartLe : cells.length ≤ start.length := length_le_length_writeAt _ _ _ _
  have hstartM : start.length ≤ M :=
    length_writeAt_le fill hphysical (by rw [List.length_drop]; omega)
  have hendLe := length_le_length_writeAt fill start ((p + xs.length) % M)
    (ys.take (min ys.length (M - (p + xs.length) % M)))
  have hend : (p + xs.length) % M +
      (ys.take (min ys.length (M - (p + xs.length) % M))).length ≤ M := by
    rw [hlenTake]
    omega
  have hendM := length_writeAt_le fill hstartM hend
  have hreach := le_length_writeAt fill start ((p + xs.length) % M) htake
  rw [hlenTake] at hreach
  refine ⟨hendM, hring, ?_⟩
  rw [List.length_append]
  -- the contents have not gone round yet: the part at the tail either stays behind them,
  -- or it ends at the end of the ring
  rcases h.filled with hroom | hfull
  · by_cases hround : p + xs.length = M
    · exact .inr (by omega)
    · rw [Nat.mod_eq_of_lt (show p + xs.length < M by omega)] at hreach hendM hendLe ⊢
      omega
  · exact .inr (by omega)

end RingStored

/-! ## 6. Rings in a list that may be too long -/

/-- The ring holds `xs`; where the number of cells is known to be bounded, it stores them. -/
structure RingKept (bounded : Prop) (M p : Nat) (cells xs : List α) : Prop where
  ring : RingHolds M cells p xs
  stored : bounded → RingStored M p cells xs

namespace RingKept

variable {bounded : Prop}

/-- The cells are the contents. -/
theorem self (hxs : xs.length ≤ M) : RingKept bounded M 0 xs xs :=
  ⟨ringHolds_self hxs, fun _ => ⟨hxs, ringHolds_self hxs, .inl (Nat.zero_add _).le⟩⟩

theorem writeAt_free (fill : α) {pos : Nat} (h : RingKept bounded M p cells xs)
    (hxs : xs.length ≤ M) (hend : pos + ys.length ≤ M)
    (hfree : ∀ j, j < ys.length → ∃ r, xs.length ≤ r ∧ r < M ∧ pos + j = (p + r) % M) :
    RingKept bounded M p (writeAt fill cells pos ys) xs :=
  ⟨h.ring.writeAt_free fill hxs hfree, fun hb => (h.stored hb).writeAt_free fill hxs hend hfree⟩

theorem write_behind (fill : α) (hp : p < M) (h : RingKept bounded M p cells xs)
    (hfit : xs.length + ys.length ≤ M) :
    RingKept bounded M p
      (writeAt fill
        (writeAt fill cells 0 (ys.drop (min ys.length (M - (p + xs.length) % M))))
        ((p + xs.length) % M) (ys.take (min ys.length (M - (p + xs.length) % M))))
      (xs ++ ys) :=
  ⟨h.ring.write_behind fill (by omega) hfit, fun hb => (h.stored hb).write_behind fill hp hfit⟩

end RingKept

end EventRecorder.Theory
