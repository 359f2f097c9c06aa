import Mathlib

/-!
# Fifo — a bounded queue with a batch that has not been saved

Elements are appended to a batch and become part of the queue when the batch is saved.  An element
occupies `weight` units of the capacity and `cost` units of the budget of a read; a read answers the
longest prefix of the saved queue that the budget covers.
-/

namespace EventRecorder.Theory

variable {α : Type*}

/-! ## 1. The longest prefix within a budget -/

/-- The elements from the front for as long as their costs stay within the budget. -/
def takeWithin (cost : α → Nat) : Nat → List α → List α
  | _, [] => []
  | budget, a :: as =>
    if cost a ≤ budget then a :: takeWithin cost (budget - cost a) as else []

theorem takeWithin_isPrefix (cost : α → Nat) (budget : Nat) (as : List α) :
    takeWithin cost budget as <+: as := by
  induction as generalizing budget with
  | nil => exact List.prefix_refl []
  | cons a as ih =>
    rw [takeWithin]
    split
    · exact (List.prefix_cons_inj a).mpr (ih (budget - cost a))
    · exact List.nil_prefix

/-- No prefix within the budget is longer. -/
theorem prefix_takeWithin {cost : α → Nat} {budget : Nat} {pre as : List α} (hpre : pre <+: as)
    (hsum : (pre.map cost).sum ≤ budget) : pre <+: takeWithin cost budget as := by
  induction as generalizing budget pre with
  | nil => rwa [takeWithin]
  | cons a as ih =>
    cases pre with
    | nil => exact List.nil_prefix
    | cons b pre =>
      obtain ⟨rfl, htail⟩ := List.cons_prefix_cons.mp hpre
      rw [List.map_cons, List.sum_cons] at hsum
      -- the front element of the prefix is paid for, and the budget left covers the rest
      rw [takeWithin, if_pos (by omega)]
      exact (List.prefix_cons_inj b).mpr (ih htail (by omega))

theorem sum_takeWithin_le (cost : α → Nat) (budget : Nat) (as : List α) :
    ((takeWithin cost budget as).map cost).sum ≤ budget := by
  induction as generalizing budget with
  | nil => exact Nat.zero_le _
  | cons a as ih =>
    unfold takeWithin
    split
    · have := ih (budget - cost a)
      rw [List.map_cons, List.sum_cons]
      omega
    · exact Nat.zero_le _

theorem takeWithin_of_sum_le {cost : α → Nat} {budget : Nat} {as : List α}
    (hsum : (as.map cost).sum ≤ budget) : takeWithin cost budget as = as :=
  (takeWithin_isPrefix cost budget as).eq_of_length_le
    (prefix_takeWithin (List.prefix_refl as) hsum).length_le

theorem takeWithin_congr {cost cost' : α → Nat} {as : List α} (h : ∀ a ∈ as, cost a = cost' a)
    (budget : Nat) : takeWithin cost budget as = takeWithin cost' budget as := by
  induction as generalizing budget with
  | nil => rfl
  | cons a as ih =>
    rw [takeWithin, takeWithin, h a List.mem_cons_self,
      ih fun other hother => h other (List.mem_cons_of_mem _ hother)]

theorem takeWithin_map {β : Type*} (cost : α → Nat) (f : β → α) (budget : Nat) (bs : List β) :
    takeWithin cost budget (bs.map f) = (takeWithin (fun b => cost (f b)) budget bs).map f := by
  induction bs generalizing budget with
  | nil => rfl
  | cons b bs ih =>
    rw [List.map_cons, takeWithin, takeWithin]
    by_cases hcost : cost (f b) ≤ budget
    · rw [if_pos hcost, if_pos hcost, ih, List.map_cons]
    · rw [if_neg hcost, if_neg hcost]
      rfl

/-- A budget that covers the front goes on with what it has left. -/
theorem takeWithin_append_of_le {cost : α → Nat} {budget : Nat} {as : List α}
    (h : (as.map cost).sum ≤ budget) (bs : List α) :
    takeWithin cost budget (as ++ bs) =
      as ++ takeWithin cost (budget - (as.map cost).sum) bs := by
  induction as generalizing budget with
  | nil => rfl
  | cons a as ih =>
    rw [List.map_cons, List.sum_cons] at h
    rw [List.cons_append, takeWithin, if_pos (by omega), ih (by omega), List.map_cons,
      List.sum_cons, Nat.sub_sub]
    rfl

/-- A budget that does not cover the front never gets behind it. -/
theorem takeWithin_append_of_lt {cost : α → Nat} {budget : Nat} {as : List α}
    (h : budget < (as.map cost).sum) (bs : List α) :
    takeWithin cost budget (as ++ bs) = takeWithin cost budget as := by
  induction as generalizing budget with
  | nil => exact absurd h (Nat.not_lt_zero _)
  | cons a as ih =>
    rw [List.map_cons, List.sum_cons] at h
    rw [List.cons_append, takeWithin, takeWithin]
    by_cases hcost : cost a ≤ budget
    · rw [if_pos hcost, if_pos hcost, ih (by omega)]
    · rw [if_neg hcost, if_neg hcost]

theorem length_eq_of_mapM {β ε : Type*} {decode : α → Except ε β} {as : List α} {bs : List β}
    (h : as.mapM decode = .ok bs) : as.length = bs.length := by
  induction as generalizing bs with
  | nil =>
    cases h
    rfl
  | cons a as ih =>
    rw [List.mapM_cons] at h
    cases ha : decode a with
    | error e =>
      rw [ha] at h
      cases h
    | ok b =>
      rw [ha] at h
      cases has : as.mapM decode with
      | error e =>
        rw [has] at h
        cases h
      | ok rest =>
        rw [has] at h
        cases h
        rw [List.length_cons, List.length_cons, ih has]

/-- Decoding keeps the prefix where what is decoded costs what it was decoded from. -/
theorem takeWithin_mapM {β ε : Type*} {decode : α → Except ε β} {cost : α → Nat}
    {cost' : β → Nat} (hcost : ∀ a b, decode a = .ok b → cost a = cost' b) {as : List α}
    {bs : List β} (h : as.mapM decode = .ok bs) (budget : Nat) :
    (takeWithin cost budget as).mapM decode = .ok (takeWithin cost' budget bs) ∧
      takeWithin cost budget as = as.take (takeWithin cost' budget bs).length := by
  induction as generalizing bs budget with
  | nil =>
    cases h
    exact ⟨rfl, rfl⟩
  | cons a as ih =>
    rw [List.mapM_cons] at h
    cases ha : decode a with
    | error e =>
      rw [ha] at h
      cases h
    | ok b =>
      rw [ha] at h
      cases has : as.mapM decode with
      | error e =>
        rw [has] at h
        cases h
      | ok rest =>
        rw [has] at h
        cases h
        have hab := hcost a b ha
        rw [takeWithin, takeWithin, hab]
        by_cases hfits : cost' b ≤ budget
        · obtain ⟨hmap, htake⟩ := ih has (budget - cost' b)
          rw [if_pos hfits, if_pos hfits, List.mapM_cons, ha, hmap, List.length_cons,
            List.take_succ_cons, ← htake]
          exact ⟨rfl, rfl⟩
        · rw [if_neg hfits, if_neg hfits]
          exact ⟨rfl, rfl⟩

/-- A prefix within the budget that no other prefix within the budget is longer than. -/
structure IsLongestPrefix (cost : α → Nat) (budget : Nat) (pre as : List α) : Prop where
  isPrefix : pre <+: as
  sum_le : (pre.map cost).sum ≤ budget
  longest : ∀ other, other <+: as → (other.map cost).sum ≤ budget → other <+: pre

theorem takeWithin_isLongestPrefix (cost : α → Nat) (budget : Nat) (as : List α) :
    IsLongestPrefix cost budget (takeWithin cost budget as) as :=
  ⟨takeWithin_isPrefix cost budget as, sum_takeWithin_le cost budget as,
    fun _ => prefix_takeWithin⟩

theorem IsLongestPrefix.eq_of_sum_le {cost : α → Nat} {budget : Nat} {pre as : List α}
    (h : IsLongestPrefix cost budget pre as) (hsum : (as.map cost).sum ≤ budget) : pre = as :=
  h.isPrefix.eq_of_length_le (h.longest as List.prefix_rfl hsum).length_le

theorem IsLongestPrefix.eq_takeWithin {cost : α → Nat} {budget : Nat} {pre as : List α}
    (h : IsLongestPrefix cost budget pre as) : pre = takeWithin cost budget as :=
  (prefix_takeWithin h.isPrefix h.sum_le).eq_of_length_le
    (h.longest _ (takeWithin_isPrefix _ _ _) (sum_takeWithin_le _ _ _)).length_le

/-- The budget that a prefix uses up gives the prefix back. -/
theorem takeWithin_sum_append {cost : α → Nat} (hpos : ∀ a, 0 < cost a) (pre rest : List α) :
    takeWithin cost (pre.map cost).sum (pre ++ rest) = pre := by
  induction pre with
  | nil =>
    -- nothing of the budget is left, and no element is free
    cases rest with
    | nil => rfl
    | cons a rest =>
      have hcost := hpos a
      rw [List.nil_append, List.map_nil, List.sum_nil, takeWithin, if_neg (by omega)]
  | cons a pre ih =>
    rw [List.cons_append, List.map_cons, List.sum_cons, takeWithin, if_pos (Nat.le_add_right _ _),
      Nat.add_sub_cancel_left, ih]

/-! ## 2. The queue -/

structure Fifo (α : Type*) where
  saved : List α
  unsaved : List α
  deriving DecidableEq, Repr

namespace Fifo

def empty : Fifo α := ⟨[], []⟩

/-- The capacity in use, by the batch as well. -/
def occupied (weight : α → Nat) (q : Fifo α) : Nat :=
  (q.saved.map weight).sum + (q.unsaved.map weight).sum

/-- An element that does not fit is refused and changes nothing. -/
def append (weight : α → Nat) (capacity : Nat) (q : Fifo α) (a : α) : Bool × Fifo α :=
  if q.occupied weight + weight a ≤ capacity then (true, { q with unsaved := q.unsaved ++ [a] })
  else (false, q)

def save (q : Fifo α) : Fifo α :=
  { saved := q.saved ++ q.unsaved, unsaved := [] }

def read (cost : α → Nat) (budget : Nat) (q : Fifo α) : List α :=
  takeWithin cost budget q.saved

/-- The first `n` saved elements go. -/
def remove (n : Nat) (q : Fifo α) : Fifo α :=
  { q with saved := q.saved.drop n }

/-- Whether a saved element is left behind the first `n`. -/
def hasMore (n : Nat) (q : Fifo α) : Bool :=
  n < q.saved.length

def purge (q : Fifo α) : Fifo α :=
  { q with saved := [] }

/-- The batch does not survive closing and opening again. -/
def reopen (q : Fifo α) : Fifo α :=
  { q with unsaved := [] }

/-! ## 3. Storing several elements at once -/

/-- Appends from the front for as long as the elements fit, and counts them. -/
def appendAll (weight : α → Nat) (capacity : Nat) (q : Fifo α) : List α → Nat × Fifo α
  | [] => (0, q)
  | a :: as =>
    match q.append weight capacity a with
    -- the first element that does not fit ends the loop, even where a later one would fit
    | (false, q) => (0, q)
    | (true, q) =>
      let rest := appendAll weight capacity q as
      (rest.1 + 1, rest.2)

/-- Appends what fits and saves the batch, unless saving fails.  A batch of nothing cannot fail. -/
def store (weight : α → Nat) (capacity : Nat) (q : Fifo α) (as : List α) (fails : Bool) :
    Option Nat × Fifo α :=
  let appended := q.appendAll weight capacity as
  if fails ∧ appended.2.unsaved ≠ [] then (none, appended.2)
  else (some appended.1, appended.2.save)

variable (weight : α → Nat) (capacity : Nat)

theorem appendAll_length_le (q : Fifo α) (as : List α) :
    (q.appendAll weight capacity as).1 ≤ as.length := by
  induction as generalizing q with
  | nil => exact le_refl 0
  | cons a as ih =>
    unfold appendAll
    split
    · exact Nat.zero_le _
    · rename_i q' _
      simp only [List.length_cons]
      have := ih q'
      omega

/-- What is counted is the longest prefix that there is room for. -/
theorem appendAll_fst (q : Fifo α) (as : List α) (hroom : q.occupied weight ≤ capacity) :
    (q.appendAll weight capacity as).1 =
      (takeWithin weight (capacity - q.occupied weight) as).length := by
  induction as generalizing q with
  | nil => rfl
  | cons a as ih =>
    unfold appendAll
    rw [takeWithin]
    by_cases hfits : q.occupied weight + weight a ≤ capacity
    · have hoccupied : (⟨q.saved, q.unsaved ++ [a]⟩ : Fifo α).occupied weight =
          q.occupied weight + weight a := by
        simp only [occupied, List.map_append, List.map_cons, List.map_nil, List.sum_append,
          List.sum_cons, List.sum_nil]
        omega
      have hrest := ih ⟨q.saved, q.unsaved ++ [a]⟩ (by omega)
      simp only [append, if_pos hfits]
      rw [if_pos (by omega), List.length_cons, hrest, hoccupied, Nat.sub_sub]
    · simp only [append, if_neg hfits]
      rw [if_neg (by omega), List.length_nil]

/-- The elements counted join the batch, in order. -/
theorem appendAll_snd (q : Fifo α) (as : List α) :
    (q.appendAll weight capacity as).2 =
      { q with unsaved := q.unsaved ++ as.take (q.appendAll weight capacity as).1 } := by
  induction as generalizing q with
  | nil => simp [appendAll]
  | cons a as ih =>
    -- the induction is on the elements; the first of them fits or ends the loop
    unfold appendAll
    by_cases hfits : q.occupied weight + weight a ≤ capacity
    · simp only [append, if_pos hfits]
      rw [ih]
      simp
    · simp [append, if_neg hfits]

theorem saved_appendAll (q : Fifo α) (as : List α) :
    (q.appendAll weight capacity as).2.saved = q.saved := by
  rw [appendAll_snd]

/-- What a store that fails adds to the batch is not part of the queue. -/
theorem store_fails {q : Fifo α} {as : List α} {fails : Bool}
    (h : (q.store weight capacity as fails).1 = none) :
    fails = true ∧ (q.store weight capacity as fails).2.saved = q.saved := by
  simp only [store] at h ⊢
  by_cases hfailed : fails ∧ (q.appendAll weight capacity as).2.unsaved ≠ []
  · rw [if_pos hfailed]
    exact ⟨hfailed.1, saved_appendAll weight capacity q as⟩
  · rw [if_neg hfailed] at h
    cases h

/-- A store that succeeds saves the old batch first and then what it counts. -/
theorem store_succeeds {q : Fifo α} {as : List α} {fails : Bool} {n : Nat}
    (h : (q.store weight capacity as fails).1 = some n) :
    (q.store weight capacity as fails).2 = ⟨q.saved ++ (q.unsaved ++ as.take n), []⟩ := by
  simp only [store] at h ⊢
  by_cases hfailed : fails ∧ (q.appendAll weight capacity as).2.unsaved ≠ []
  · rw [if_pos hfailed] at h
    cases h
  · rw [if_neg hfailed, Option.some.injEq] at h
    rw [if_neg hfailed, appendAll_snd, save, h]

/-- A failure that does not keep a store from succeeding met an empty batch. -/
theorem unsaved_eq_nil_of_store {q : Fifo α} {as : List α} {n : Nat}
    (h : (q.store weight capacity as true).1 = some n) : q.unsaved = [] := by
  simp only [store] at h
  by_cases hbatch : (q.appendAll weight capacity as).2.unsaved = []
  · rw [appendAll_snd] at hbatch
    exact (List.append_eq_nil_iff.mp hbatch).1
  · rw [if_pos ⟨trivial, hbatch⟩] at h
    cases h

end Fifo

end EventRecorder.Theory
