import Mathlib

/-!
# The order of decimal numbers as texts

Decimal numbers of one length are in the same order as texts and as numbers.  A text that starts
with a front of a fixed length is ordered by its front first.
-/

namespace EventRecorder.Theory

/-- Fronts of one length decide, and the rests only where these are equal. -/
theorem append_lt_append_iff {α : Type*} [LT α] [Std.Irrefl (· < · : α → α → Prop)]
    {front front' rest rest' : List α} (hlength : front.length = front'.length) :
    front ++ rest < front' ++ rest' ↔ front < front' ∨ front = front' ∧ rest < rest' := by
  induction front generalizing front' with
  | nil =>
    cases front' with
    | nil => simp
    | cons a front' => exact absurd hlength (Nat.zero_ne_add_one _)
  | cons a front ih =>
    cases front' with
    | nil => exact absurd hlength (Nat.succ_ne_zero _)
    | cons b front' =>
      rw [List.cons_append, List.cons_append, List.cons_lt_cons_iff, List.cons_lt_cons_iff,
        ih (Nat.succ.inj hlength), List.cons.injEq]
      tauto

/-- A digit is its character code less that of zero. -/
theorem isDigit_sub_lt {c : Char} (hdigit : c.isDigit = true) :
    '0'.toNat ≤ c.toNat ∧ c.toNat - '0'.toNat < 10 := by
  rw [Char.isDigit, Bool.and_eq_true, decide_eq_true_eq, decide_eq_true_eq] at hdigit
  have hlow : '0'.toNat ≤ c.toNat := hdigit.1
  have hhigh : c.toNat ≤ '9'.toNat := hdigit.2
  rw [show '9'.toNat = 57 from rfl] at hhigh
  rw [show '0'.toNat = 48 from rfl] at hlow ⊢
  omega

theorem ofDigitChars_cons_eq (c : Char) (cs : List Char) :
    Nat.ofDigitChars 10 (c :: cs) 0 =
      10 ^ cs.length * (c.toNat - '0'.toNat) + Nat.ofDigitChars 10 cs 0 := by
  rw [Nat.ofDigitChars_cons, Nat.mul_zero, Nat.zero_add, Nat.ofDigitChars_eq_ofDigitChars_zero]

theorem ofDigitChars_lt_pow {cs : List Char} (hdigits : ∀ c ∈ cs, c.isDigit = true) :
    Nat.ofDigitChars 10 cs 0 < 10 ^ cs.length := by
  induction cs with
  | nil => decide
  | cons c cs ih =>
    have hrest := ih fun d hd => hdigits d (List.mem_cons_of_mem c hd)
    have hdigit := (isDigit_sub_lt (hdigits c List.mem_cons_self)).2
    rw [ofDigitChars_cons_eq, List.length_cons, Nat.pow_succ]
    nlinarith

/-- Texts of digits of one length are in the order of their numbers. -/
theorem digits_lt_iff {cs ds : List Char} (hlength : cs.length = ds.length)
    (hcs : ∀ c ∈ cs, c.isDigit = true) (hds : ∀ d ∈ ds, d.isDigit = true) :
    cs < ds ↔ Nat.ofDigitChars 10 cs 0 < Nat.ofDigitChars 10 ds 0 := by
  induction cs generalizing ds with
  | nil =>
    cases ds with
    | nil => simp
    | cons d ds => exact absurd hlength (Nat.zero_ne_add_one _)
  | cons c cs ih =>
    cases ds with
    | nil => exact absurd hlength (Nat.succ_ne_zero _)
    | cons d ds =>
      have hrest : cs.length = ds.length := Nat.succ.inj hlength
      have hcs' : ∀ c ∈ cs, c.isDigit = true := fun a ha => hcs a (List.mem_cons_of_mem c ha)
      have hds' : ∀ d ∈ ds, d.isDigit = true := fun a ha => hds a (List.mem_cons_of_mem d ha)
      have hc := isDigit_sub_lt (hcs c List.mem_cons_self)
      have hd := isDigit_sub_lt (hds d List.mem_cons_self)
      have hlow := ofDigitChars_lt_pow hcs'
      have hhigh := ofDigitChars_lt_pow hds'
      have hlt : c < d ↔ c.toNat < d.toNat := Iff.rfl
      have heq : c = d ↔ c.toNat = d.toNat := Char.toNat_inj.symm
      rw [List.cons_lt_cons_iff, ofDigitChars_cons_eq, ofDigitChars_cons_eq, ih hrest hcs' hds',
        hlt, heq, ← hrest]
      rw [← hrest] at hhigh
      -- the first digits decide, since the rest is below the value of a place
      generalize Nat.ofDigitChars 10 cs 0 = x at *
      generalize Nat.ofDigitChars 10 ds 0 = y at *
      generalize 10 ^ cs.length = place at *
      generalize '0'.toNat = lowest at *
      constructor
      · intro h
        cases h with
        | inl hfirst =>
          have hstep : c.toNat - lowest + 1 ≤ d.toNat - lowest := by omega
          have hmul := Nat.mul_le_mul_left place hstep
          rw [Nat.mul_add, Nat.mul_one] at hmul
          omega
        | inr hsame =>
          rw [hsame.1]
          omega
      · intro h
        rcases Nat.lt_trichotomy c.toNat d.toNat with hfirst | hsame | hlast
        · exact .inl hfirst
        · rw [hsame] at h
          exact .inr ⟨hsame, by omega⟩
        · have hstep : d.toNat - lowest + 1 ≤ c.toNat - lowest := by omega
          have hmul := Nat.mul_le_mul_left place hstep
          rw [Nat.mul_add, Nat.mul_one] at hmul
          omega

/-- The number of decimal digits. -/
theorem length_toDigits_eq {n k : Nat} (hlow : 10 ^ k ≤ n) (hhigh : n < 10 ^ (k + 1)) :
    (Nat.toDigits 10 n).length = k + 1 := by
  have hle : (Nat.toDigits 10 n).length ≤ k + 1 :=
    (Nat.length_toDigits_le_iff (by decide) (by omega)).mpr hhigh
  cases k with
  | zero =>
    have hpos := @Nat.length_toDigits_pos 10 n
    omega
  | succ k =>
    have hnot : ¬ (Nat.toDigits 10 n).length ≤ k + 1 := fun h =>
      absurd ((Nat.length_toDigits_le_iff (by decide) (by omega)).mp h) (by omega)
    omega

end EventRecorder.Theory
