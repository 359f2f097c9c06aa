import EventRecorder.Theory.KeyFile

/-!
# Uuid — identifiers of 128 bits and their text

A UUID is written as 32 hexadecimal digits in groups of 8, 4, 4, 4 and 12 with hyphens between them.
Writing uses lower-case digits; parsing takes both cases.
-/

namespace EventRecorder.Theory

/-- The 32 hexadecimal digits of a UUID. -/
structure Uuid where
  digits : List (Fin 16)
  length_eq : digits.length = 32
  deriving DecidableEq

namespace Uuid

/-- The UUID of zeros. -/
def null : Uuid := ⟨List.replicate 32 0, List.length_replicate⟩

def hexDigit (d : Fin 16) : Char :=
  Char.ofNat (if d.val < 10 then '0'.toNat + d.val else 'a'.toNat + (d.val - 10))

def hexDigitValue (c : Char) : Option (Fin 16) :=
  if '0' ≤ c ∧ c ≤ '9' then some (Fin.ofNat 16 (c.toNat - '0'.toNat))
  else if 'a' ≤ c ∧ c ≤ 'f' then some (Fin.ofNat 16 (c.toNat - 'a'.toNat + 10))
  else if 'A' ≤ c ∧ c ≤ 'F' then some (Fin.ofNat 16 (c.toNat - 'A'.toNat + 10))
  else none

@[simp] theorem hexDigitValue_hexDigit (d : Fin 16) : hexDigitValue (hexDigit d) = some d := by
  revert d
  decide

theorem not_space_hexDigit (d : Fin 16) : asciiIsSpace (hexDigit d) = false := by
  revert d
  decide

theorem mapM_hexDigitValue (digits : List (Fin 16)) :
    (digits.map hexDigit).mapM hexDigitValue = some digits := by
  induction digits with
  | nil => rfl
  | cons d digits ih => simp [List.mapM_cons, ih]

/-- Digits in groups of the given lengths, with hyphens between the groups. -/
def unparseGroups : List Nat → List (Fin 16) → Text
  | [], _ => []
  | [n], digits => (digits.take n).map hexDigit
  | n :: ns, digits => (digits.take n).map hexDigit ++ '-' :: unparseGroups ns (digits.drop n)

def parseGroups : List Nat → Text → Option (List (Fin 16))
  | [], t => if t = [] then some [] else none
  | [n], t => if t.length = n then t.mapM hexDigitValue else none
  | n :: ns, t =>
    match (t.take n).mapM hexDigitValue, t.drop n with
    | some digits, '-' :: rest => (parseGroups ns rest).map (digits ++ ·)
    | _, _ => none

theorem parseGroups_unparseGroups {groups : List Nat} {digits : List (Fin 16)}
    (hlen : digits.length = groups.sum) :
    parseGroups groups (unparseGroups groups digits) = some digits := by
  induction groups generalizing digits with
  | nil => simp_all [parseGroups, unparseGroups]
  | cons n groups ih =>
    rw [List.sum_cons] at hlen
    cases groups with
    | nil =>
      rw [List.sum_nil, Nat.add_zero] at hlen
      rw [unparseGroups, parseGroups, List.take_of_length_le hlen.le, List.length_map, if_pos hlen,
        mapM_hexDigitValue]
    | cons m groups =>
      have hfront : ((digits.take n).map hexDigit).length = n := by
        rw [List.length_map, List.length_take]
        omega
      have hrest := @ih (digits.drop n) (by rw [List.length_drop]; omega)
      -- the first group and its hyphen are taken off the front
      rw [unparseGroups, parseGroups, List.take_left' hfront, List.drop_left' hfront,
        mapM_hexDigitValue]
      · simp only [hrest, Option.map_some, List.take_append_drop]
      all_goals simp

def groups : List Nat := [8, 4, 4, 4, 12]

/-- `uuid_unparse_lower`. -/
def unparseLower (uuid : Uuid) : Text :=
  unparseGroups groups uuid.digits

/-- `uuid_parse`. -/
def parse (t : Text) : Option Uuid :=
  match parseGroups groups t with
  | none => none
  | some digits => if h : digits.length = 32 then some ⟨digits, h⟩ else none

@[simp] theorem parse_unparseLower (uuid : Uuid) : parse uuid.unparseLower = some uuid := by
  have hlen : uuid.digits.length = groups.sum := uuid.length_eq
  rw [parse, unparseLower, parseGroups_unparseGroups hlen]
  exact dif_pos uuid.length_eq

theorem not_space_of_mem_unparseGroups {groups : List Nat} {digits : List (Fin 16)} {c : Char}
    (hc : c ∈ unparseGroups groups digits) : asciiIsSpace c = false := by
  have hdigits : ∀ digits : List (Fin 16), ∀ c ∈ digits.map hexDigit, asciiIsSpace c = false := by
    intro digits c hc
    obtain ⟨d, -, rfl⟩ := List.mem_map.mp hc
    exact not_space_hexDigit d
  induction groups generalizing digits with
  | nil => simp [unparseGroups] at hc
  | cons n groups ih =>
    cases groups with
    | nil => exact hdigits _ c hc
    | cons m groups =>
      rw [unparseGroups, List.mem_append, List.mem_cons] at hc
      · rcases hc with hfront | rfl | hrest
        · exact hdigits _ c hfront
        · decide
        · exact ih hrest
      · simp

/-- There is no white space in the text of a UUID, so none is taken off its end. -/
theorem rdropWhile_unparseLower (uuid : Uuid) :
    uuid.unparseLower.rdropWhile asciiIsSpace = uuid.unparseLower := by
  apply List.rdropWhile_eq_self_iff.mpr
  intro hne hspace
  rw [not_space_of_mem_unparseGroups (List.getLast_mem hne)] at hspace
  cases hspace

end Uuid

end EventRecorder.Theory
