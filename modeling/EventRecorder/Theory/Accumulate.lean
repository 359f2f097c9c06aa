import Mathlib

/-!
# Accumulate — tables that sum values by key

A table has one row for each key.  Accumulating a value adds it to the row of its key, or starts a
row.  Over a commutative monoid the row of a key ends up with the sum of the values of that key,
whatever the order in which they came.
-/

namespace EventRecorder.Theory

variable {K V W M : Type*} [DecidableEq K]

def accumulate (add : V → V → V) (k : K) (v : V) : List (K × V) → List (K × V)
  | [] => [(k, v)]
  | row :: rows =>
    if row.1 = k then (row.1, add row.2 v) :: rows else row :: accumulate add k v rows

/-- The table that a list of entries leaves. -/
def accumulateAll (add : V → V → V) (entries : List (K × V)) : List (K × V) :=
  entries.foldl (fun rows entry => accumulate add entry.1 entry.2 rows) []

/-- The sum of the values of a key. -/
def totalAt [AddCommMonoid M] (k : K) (entries : List (K × M)) : M :=
  ((entries.filter (·.1 = k)).map Prod.snd).sum

/-! ## 1. Keys -/

theorem keys_accumulate (add : V → V → V) (k : K) (v : V) (rows : List (K × V)) :
    (accumulate add k v rows).map Prod.fst =
      if k ∈ rows.map Prod.fst then rows.map Prod.fst else rows.map Prod.fst ++ [k] := by
  induction rows with
  | nil => rfl
  | cons row rows ih =>
    by_cases hkey : row.1 = k
    · simp [accumulate, hkey]
    · have hkey' : ¬ k = row.1 := fun h => hkey h.symm
      rw [accumulate, if_neg hkey, List.map_cons, ih]
      by_cases hmem : k ∈ rows.map Prod.fst
      · rw [if_pos hmem, if_pos (by simp [hmem]), List.map_cons]
      · rw [if_neg hmem, if_neg (by simpa [hkey'] using hmem), List.map_cons, List.cons_append]

theorem nodup_accumulate (add : V → V → V) (k : K) (v : V) {rows : List (K × V)}
    (h : (rows.map Prod.fst).Nodup) : ((accumulate add k v rows).map Prod.fst).Nodup := by
  rw [keys_accumulate]
  split
  · exact h
  · rename_i hnew
    apply List.Nodup.append h (List.nodup_singleton k)
    simpa using hnew

theorem mem_keys_accumulate (add : V → V → V) (k k' : K) (v : V) (rows : List (K × V)) :
    k' ∈ (accumulate add k v rows).map Prod.fst ↔ k' ∈ rows.map Prod.fst ∨ k' = k := by
  rw [keys_accumulate]
  split
  · rename_i hold
    constructor
    · exact .inl
    · intro h
      cases h with
      | inl h => exact h
      | inr h => exact h ▸ hold
  · rw [List.mem_append, List.mem_singleton]

/-- A function that turns one addition into the other turns one table into the other. -/
theorem map_accumulate {add : V → V → V} {add' : W → W → W} {f : V → W}
    (hf : ∀ a b, f (add a b) = add' (f a) (f b)) (k : K) (v : V) (rows : List (K × V)) :
    (accumulate add k v rows).map (Prod.map id f) =
      accumulate add' k (f v) (rows.map (Prod.map id f)) := by
  induction rows with
  | nil => rfl
  | cons row rows ih =>
    obtain ⟨k', v'⟩ := row
    by_cases hkey : k' = k
    · simp [accumulate, hkey, hf]
    · simp [accumulate, hkey, ih]

/-- The entries can be taken one by one from the end. -/
theorem accumulateAll_concat (add : V → V → V) (entries : List (K × V)) (entry : K × V) :
    accumulateAll add (entries ++ [entry]) =
      accumulate add entry.1 entry.2 (accumulateAll add entries) := by
  rw [accumulateAll, List.foldl_concat, accumulateAll]

theorem nodup_accumulateAll (add : V → V → V) (entries : List (K × V)) :
    ((accumulateAll add entries).map Prod.fst).Nodup := by
  induction entries using List.reverseRecOn with
  | nil => exact List.nodup_nil
  | append_singleton entries entry ih =>
    rw [accumulateAll_concat]
    exact nodup_accumulate add _ _ ih

theorem mem_keys_accumulateAll (add : V → V → V) (entries : List (K × V)) (k : K) :
    k ∈ (accumulateAll add entries).map Prod.fst ↔ k ∈ entries.map Prod.fst := by
  induction entries using List.reverseRecOn with
  | nil => rfl
  | append_singleton entries entry ih =>
    rw [accumulateAll_concat, mem_keys_accumulate, ih, List.map_append, List.mem_append,
      List.map_singleton, List.mem_singleton]

/-! ## 2. Sums -/

section Sums

variable [AddCommMonoid M]

theorem totalAt_cons (k : K) (row : K × M) (rows : List (K × M)) :
    totalAt k (row :: rows) = (if row.1 = k then row.2 else 0) + totalAt k rows := by
  by_cases hkey : row.1 = k
  · simp [totalAt, hkey]
  · simp [totalAt, hkey]

theorem totalAt_concat (k : K) (rows : List (K × M)) (row : K × M) :
    totalAt k (rows ++ [row]) = totalAt k rows + if row.1 = k then row.2 else 0 := by
  by_cases hkey : row.1 = k
  · simp [totalAt, hkey]
  · simp [totalAt, hkey]

theorem totalAt_accumulate (k k' : K) (v : M) (rows : List (K × M)) :
    totalAt k' (accumulate (· + ·) k v rows) = totalAt k' rows + if k = k' then v else 0 := by
  induction rows with
  | nil =>
    rw [accumulate, totalAt_cons]
    exact add_comm _ _
  | cons row rows ih =>
    by_cases hkey : row.1 = k
    · rw [accumulate, if_pos hkey, totalAt_cons, totalAt_cons, hkey]
      by_cases hkey' : k = k'
      · simp only [if_pos hkey', add_right_comm]
      · simp only [if_neg hkey', add_zero]
    · rw [accumulate, if_neg hkey, totalAt_cons, totalAt_cons, ih, add_assoc]

theorem totalAt_accumulateAll (entries : List (K × M)) (k : K) :
    totalAt k (accumulateAll (· + ·) entries) = totalAt k entries := by
  induction entries using List.reverseRecOn with
  | nil => rfl
  | append_singleton entries entry ih =>
    rw [accumulateAll_concat, totalAt_accumulate, ih, totalAt_concat]

/-- A row of a table with one row for each key has the whole sum of its key. -/
theorem totalAt_of_mem {rows : List (K × M)} (hnodup : (rows.map Prod.fst).Nodup) {k : K} {v : M}
    (h : (k, v) ∈ rows) : totalAt k rows = v := by
  induction rows with
  | nil => cases h
  | cons row rows ih =>
    obtain ⟨hnotMem, hrest⟩ := List.nodup_cons.mp hnodup
    rw [totalAt_cons]
    cases List.mem_cons.mp h with
    | inl heq =>
      subst heq
      -- no other row has the key
      have hnone : rows.filter (·.1 = k) = [] := by
        rw [List.filter_eq_nil_iff]
        intro other hother
        have hne : other.1 ≠ k := fun hkey => hnotMem (List.mem_map.mpr ⟨other, hother, hkey⟩)
        simpa using hne
      rw [if_pos rfl, totalAt, hnone, List.map_nil, List.sum_nil, add_zero]
    | inr hmem =>
      have hne : row.1 ≠ k := fun hkey => hnotMem (List.mem_map.mpr ⟨(k, v), hmem, hkey.symm⟩)
      rw [if_neg hne, zero_add]
      exact ih hrest hmem

theorem totalAt_perm {entries entries' : List (K × M)} (h : entries.Perm entries') (k : K) :
    totalAt k entries = totalAt k entries' :=
  ((h.filter _).map _).sum_eq

/-- **The row of a key has the sum of the values of that key.** -/
theorem mem_accumulateAll_iff (entries : List (K × M)) (k : K) (v : M) :
    (k, v) ∈ accumulateAll (· + ·) entries ↔
      k ∈ entries.map Prod.fst ∧ v = totalAt k entries := by
  have hnodup := nodup_accumulateAll (· + ·) entries
  constructor
  · intro h
    refine ⟨(mem_keys_accumulateAll _ entries k).mp (List.mem_map_of_mem h), ?_⟩
    rw [← totalAt_accumulateAll entries, totalAt_of_mem hnodup h]
  · intro h
    obtain ⟨row, hrow, hkey⟩ := List.mem_map.mp ((mem_keys_accumulateAll (· + ·) entries k).mpr h.1)
    obtain ⟨k', v'⟩ := row
    obtain rfl : k' = k := hkey
    have htotal := totalAt_of_mem hnodup hrow
    rw [totalAt_accumulateAll, ← h.2] at htotal
    rwa [htotal]

/-- The order of the entries does not matter. -/
theorem accumulateAll_perm {entries entries' : List (K × M)} (h : entries.Perm entries') :
    (accumulateAll (· + ·) entries).Perm (accumulateAll (· + ·) entries') := by
  apply (List.perm_ext_iff_of_nodup ?_ ?_).mpr
  · intro row
    obtain ⟨k, v⟩ := row
    rw [mem_accumulateAll_iff, mem_accumulateAll_iff, totalAt_perm h, (h.map Prod.fst).mem_iff]
  · exact (nodup_accumulateAll _ entries).of_map
  · exact (nodup_accumulateAll _ entries').of_map

end Sums

end EventRecorder.Theory
