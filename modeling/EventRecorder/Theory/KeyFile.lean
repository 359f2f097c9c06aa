import Mathlib

/-!
# KeyFile — groups of textual values with typed accessors

A key file maps a group and a key to a text.  The typed accessors format a value into a text and
parse it back; each has a round-trip lemma and a lemma that a write to another key does not disturb
it.  Texts are lists of characters so that the accessors evaluate by reduction.
-/

namespace EventRecorder.Theory

abbrev Text := List Char

inductive KeyFileError where
  | parse
  | groupNotFound
  | keyNotFound
  | invalidValue
  deriving DecidableEq, Repr

structure KeyFile where
  groups : List String
  values : AList fun _ : String × String => Text

instance : DecidableEq KeyFile := fun a b =>
  decidable_of_iff (a.groups = b.groups ∧ a.values.entries = b.values.entries) <| by
    cases a
    cases b
    simp [AList.ext_iff]

/-- What a path holds when it is loaded as a key file. -/
inductive KeyFileOnDisk where
  | absent
  | unparsable
  | parsed (contents : KeyFile)
  deriving DecidableEq

inductive LoadError where
  | noent
  | keyFile (code : KeyFileError)
  deriving DecidableEq, Repr

def KeyFileOnDisk.load : KeyFileOnDisk → Except LoadError KeyFile
  | .absent => .error .noent
  | .unparsable => .error (.keyFile .parse)
  | .parsed contents => .ok contents

/-! ## 1. Texts of booleans, decimal numbers and strings -/

def asciiIsSpace (c : Char) : Bool :=
  c = ' ' || c = '\t' || c = '\n' || c = '\x0b' || c = '\x0c' || c = '\r'

def formatBoolean (b : Bool) : Text :=
  if b then ['t', 'r', 'u', 'e'] else ['f', 'a', 'l', 's', 'e']

/-- Trailing white space is ignored; `1` and `0` are accepted besides `true` and `false`. -/
def parseBoolean (t : Text) : Option Bool :=
  let word := t.rdropWhile asciiIsSpace
  if word = ['t', 'r', 'u', 'e'] ∨ word = ['1'] then some true
  else if word = ['f', 'a', 'l', 's', 'e'] ∨ word = ['0'] then some false
  else none

@[simp] theorem parseBoolean_formatBoolean (b : Bool) :
    parseBoolean (formatBoolean b) = some b := by
  cases b <;> decide

def formatInt (i : Int) : Text :=
  if i < 0 then '-' :: Nat.toDigits 10 i.natAbs else Nat.toDigits 10 i.natAbs

def parseDigits (t : Text) : Option Nat :=
  if t ≠ [] ∧ t.all Char.isDigit then some (Nat.ofDigitChars 10 t 0) else none

/-- An optional sign and decimal digits, after any leading white space. -/
def parseInt (t : Text) : Option Int :=
  match t.dropWhile asciiIsSpace with
  | '-' :: digits => (parseDigits digits).map fun n : Nat => -(n : Int)
  | '+' :: digits => (parseDigits digits).map fun n : Nat => (n : Int)
  | digits => (parseDigits digits).map fun n : Nat => (n : Int)

theorem toDigits_isDigit {n : Nat} {c : Char} (hc : c ∈ Nat.toDigits 10 n) : c.isDigit = true :=
  Nat.isDigit_of_mem_toDigits (by decide) (by decide) hc

theorem parseDigits_toDigits (n : Nat) : parseDigits (Nat.toDigits 10 n) = some n := by
  have hne : Nat.toDigits 10 n ≠ [] := Nat.toDigits_ne_nil
  have hall : (Nat.toDigits 10 n).all Char.isDigit = true :=
    List.all_eq_true.mpr fun _ hc => toDigits_isDigit hc
  rw [parseDigits, if_pos ⟨hne, hall⟩, Nat.ofDigitChars_ten_toDigits]

theorem asciiIsSpace_of_isDigit {c : Char} (hdigit : c.isDigit = true) :
    asciiIsSpace c = false := by
  simp only [asciiIsSpace, Bool.or_eq_false_iff, decide_eq_false_iff_not]
  refine ⟨⟨⟨⟨⟨?_, ?_⟩, ?_⟩, ?_⟩, ?_⟩, ?_⟩ <;> rintro rfl <;> simp at hdigit

/-- A text of digits starts neither with a sign nor with white space. -/
theorem parseInt_toDigits (n : Nat) : parseInt (Nat.toDigits 10 n) = some (n : Int) := by
  have hparse := parseDigits_toDigits n
  cases hd : Nat.toDigits 10 n with
  | nil => exact absurd hd Nat.toDigits_ne_nil
  | cons c cs =>
    -- the first character is a digit, so neither sign branch is taken and nothing is skipped
    have hdigit : c.isDigit = true := toDigits_isDigit (n := n) (by rw [hd]; simp)
    have hspace : asciiIsSpace c = false := asciiIsSpace_of_isDigit hdigit
    have hminus : c ≠ '-' := by rintro rfl; simp at hdigit
    have hplus : c ≠ '+' := by rintro rfl; simp at hdigit
    rw [hd] at hparse
    rw [parseInt, List.dropWhile_cons_of_neg (by simp [hspace])]
    split
    · rename_i heq; exact absurd (List.cons.inj heq).1 hminus
    · rename_i heq; exact absurd (List.cons.inj heq).1 hplus
    · rw [hparse]; rfl

@[simp] theorem parseInt_formatInt (i : Int) : parseInt (formatInt i) = some i := by
  unfold formatInt
  split
  -- the sign is no white space, so it stays in front of the digits
  · rename_i hneg
    rw [parseInt, List.dropWhile_cons_of_neg (by decide)]
    show (parseDigits (Nat.toDigits 10 i.natAbs)).map (fun n : Nat => -(n : Int)) = some i
    rw [parseDigits_toDigits, Option.map_some, Option.some.injEq]
    omega
  · rename_i hnonneg
    rw [parseInt_toDigits]
    simp only [Option.some.injEq]
    omega

/-- The unsigned 64-bit value of a parsed number: too large a magnitude saturates, and a negative
number is negated modulo `2^64`. -/
def toUint64 (i : Int) : Nat :=
  if 2 ^ 64 ≤ i.natAbs then 2 ^ 64 - 1
  else if i < 0 then 2 ^ 64 - i.natAbs
  else i.natAbs

/-- The signed 64-bit value of a parsed number, saturating at both ends. -/
def toInt64 (i : Int) : Int :=
  if i < -2 ^ 63 then -2 ^ 63 else if 2 ^ 63 ≤ i then 2 ^ 63 - 1 else i

theorem toUint64_natCast {n : Nat} (hn : n < 2 ^ 64) : toUint64 (n : Int) = n := by
  simp only [toUint64, Int.natAbs_natCast]
  rw [if_neg (by omega), if_neg (by omega)]

theorem toInt64_eq_self {i : Int} (hlo : -2 ^ 63 ≤ i) (hhi : i < 2 ^ 63) : toInt64 i = i := by
  rw [toInt64, if_neg (by omega), if_neg (by omega)]

theorem toInt64_lt (i : Int) : toInt64 i < 2 ^ 63 := by
  unfold toInt64
  split
  · omega
  split <;> omega

/-- The value of a `gint`: what follows the digits has to start with white space, and text without
digits counts as all of it being left over. -/
def parseInteger (t : Text) : Option Int :=
  let signed := t.dropWhile asciiIsSpace
  let unsigned := if signed.head? = some '-' ∨ signed.head? = some '+' then signed.tail else signed
  let digits := unsigned.takeWhile Char.isDigit
  let rest := if digits = [] then t else unsigned.dropWhile Char.isDigit
  let magnitude := Nat.ofDigitChars 10 digits 0
  let value : Int := if signed.head? = some '-' then -(magnitude : Int) else magnitude
  if t = [] ∨ rest.head?.any (!asciiIsSpace ·) then none
  else if -2 ^ 31 ≤ value ∧ value < 2 ^ 31 then some value
  else none

theorem parseInteger_formatInt {i : Int} (hlo : 0 ≤ i) (hhi : i < 2 ^ 31) :
    parseInteger (formatInt i) = some i := by
  obtain ⟨n, rfl⟩ := Int.eq_ofNat_of_zero_le hlo
  have hparse := Nat.ofDigitChars_ten_toDigits (n := n)
  have hall : ∀ c ∈ Nat.toDigits 10 n, c.isDigit = true := fun c hc => toDigits_isDigit hc
  rw [formatInt, if_neg (by omega), Int.natAbs_natCast]
  cases hd : Nat.toDigits 10 n with
  | nil => exact absurd hd Nat.toDigits_ne_nil
  | cons c cs =>
    rw [hd] at hparse hall
    -- the first character is a digit, so nothing is skipped and there is no sign
    have hdigit : c.isDigit = true := hall c List.mem_cons_self
    have htake : (c :: cs).takeWhile Char.isDigit = c :: cs := List.takeWhile_eq_self_iff.mpr hall
    have hdrop : (c :: cs).dropWhile Char.isDigit = [] := List.dropWhile_eq_nil_iff.mpr hall
    have hminus : c ≠ '-' := by rintro rfl; simp at hdigit
    have hplus : c ≠ '+' := by rintro rfl; simp at hdigit
    simp only [parseInteger, List.dropWhile_cons_of_neg (show ¬ asciiIsSpace c = true by
        simp [asciiIsSpace_of_isDigit hdigit]), List.head?_cons, Option.some.injEq, hminus, hplus,
      or_self, if_false, htake, hdrop, reduceCtorEq, hparse]
    rw [if_neg (by simp), if_pos (by omega)]

/-- The escapes of a string; `none` stands for an invalid one. -/
def parseString : Text → Option Text
  | [] => some []
  | '\\' :: 's' :: t => (parseString t).map (' ' :: ·)
  | '\\' :: 'n' :: t => (parseString t).map ('\n' :: ·)
  | '\\' :: 't' :: t => (parseString t).map ('\t' :: ·)
  | '\\' :: 'r' :: t => (parseString t).map ('\r' :: ·)
  | '\\' :: '\\' :: t => (parseString t).map ('\\' :: ·)
  | '\\' :: _ => none
  | c :: t => (parseString t).map (c :: ·)

/-- White space is escaped where it leads. -/
def formatString (leading : Bool) : Text → Text
  | [] => []
  | ' ' :: t => (if leading then ['\\', 's'] else [' ']) ++ formatString leading t
  | '\t' :: t => (if leading then ['\\', 't'] else ['\t']) ++ formatString leading t
  | '\n' :: t => '\\' :: 'n' :: formatString leading t
  | '\r' :: t => '\\' :: 'r' :: formatString leading t
  | '\\' :: t => '\\' :: '\\' :: formatString false t
  | c :: t => c :: formatString false t

@[simp] theorem parseString_formatString (leading : Bool) (t : Text) :
    parseString (formatString leading t) = some t := by
  fun_induction formatString leading t with
  | case1 => rfl
  | case2 leading t ih => cases leading <;> simp [parseString, ih]
  | case3 leading t ih => cases leading <;> simp [parseString, ih]
  | case4 leading t ih => simp [parseString, ih]
  | case5 leading t ih => simp [parseString, ih]
  | case6 leading t ih => simp [parseString, ih]
  -- a character that is kept is no backslash, so it starts no escape
  | case7 leading c t _ _ _ _ hbackslash ih =>
    rw [parseString]
    · rw [ih]
      rfl
    all_goals
      intros
      exact hbackslash ‹_›

/-! ## 2. Access by group and key -/

namespace KeyFile

def empty : KeyFile := ⟨[], ∅⟩

def hasGroup (kf : KeyFile) (group : String) : Bool :=
  group ∈ kf.groups

def getValue (kf : KeyFile) (group key : String) : Option Text :=
  kf.values.lookup (group, key)

def setValue (kf : KeyFile) (group key : String) (t : Text) : KeyFile :=
  { groups := if group ∈ kf.groups then kf.groups else kf.groups ++ [group]
    values := kf.values.insert (group, key) t }

/-- The error of a look-up that finds nothing. -/
def missing (kf : KeyFile) (group : String) : KeyFileError :=
  if kf.hasGroup group then .keyNotFound else .groupNotFound

/-- A typed look-up: the value has to be there and to parse. -/
def getParsed {α : Type*} (parse : Text → Option α) (kf : KeyFile) (group key : String) :
    Except KeyFileError α :=
  match kf.getValue group key with
  | none => .error (kf.missing group)
  | some t =>
    match parse t with
    | none => .error .invalidValue
    | some a => .ok a

def getBoolean (kf : KeyFile) (group key : String) : Except KeyFileError Bool :=
  kf.getParsed parseBoolean group key

def setBoolean (kf : KeyFile) (group key : String) (b : Bool) : KeyFile :=
  kf.setValue group key (formatBoolean b)

def getUint64 (kf : KeyFile) (group key : String) : Except KeyFileError Nat :=
  kf.getParsed (fun t => (parseInt t).map toUint64) group key

def setUint64 (kf : KeyFile) (group key : String) (n : Nat) : KeyFile :=
  kf.setValue group key (formatInt n)

def getInt64 (kf : KeyFile) (group key : String) : Except KeyFileError Int :=
  kf.getParsed (fun t => (parseInt t).map toInt64) group key

def setInt64 (kf : KeyFile) (group key : String) (i : Int) : KeyFile :=
  kf.setValue group key (formatInt i)

def getInteger (kf : KeyFile) (group key : String) : Except KeyFileError Int :=
  kf.getParsed parseInteger group key

def setInteger (kf : KeyFile) (group key : String) (i : Int) : KeyFile :=
  kf.setValue group key (formatInt i)

def getString (kf : KeyFile) (group key : String) : Except KeyFileError Text :=
  kf.getParsed parseString group key

def setString (kf : KeyFile) (group key : String) (t : Text) : KeyFile :=
  kf.setValue group key (formatString true t)

@[simp] theorem hasGroup_setValue (kf : KeyFile) (group key : String) (t : Text) :
    (kf.setValue group key t).hasGroup group = true := by
  unfold hasGroup setValue
  by_cases h : group ∈ kf.groups <;> simp [h]

@[simp] theorem getValue_setValue (kf : KeyFile) (group key : String) (t : Text) :
    (kf.setValue group key t).getValue group key = some t :=
  AList.lookup_insert kf.values

theorem getValue_setValue_ne (kf : KeyFile) {group key group' key' : String} (t : Text)
    (hne : (group', key') ≠ (group, key)) :
    (kf.setValue group key t).getValue group' key' = kf.getValue group' key' :=
  AList.lookup_insert_ne hne

/-- Only the last value of a key counts. -/
theorem setValue_setValue (kf : KeyFile) (group key : String) (t t' : Text) :
    (kf.setValue group key t).setValue group key t' = kf.setValue group key t' := by
  have hgroup : group ∈ (kf.setValue group key t).groups := by
    unfold setValue
    simp only
    split
    · assumption
    · exact List.mem_append_right _ (List.mem_singleton_self _)
  unfold setValue at hgroup ⊢
  simp only [if_pos hgroup, AList.insert_insert]

theorem getParsed_setValue {α : Type*} {parse : Text → Option α} {t : Text} {a : α}
    (kf : KeyFile) (group key : String) (hparse : parse t = some a) :
    (kf.setValue group key t).getParsed parse group key = .ok a := by
  simp only [getParsed, getValue_setValue, hparse]

/-- A value read successfully is not disturbed by a write to another key. -/
theorem getParsed_setValue_ne {α : Type*} (parse : Text → Option α) (kf : KeyFile)
    {group key group' key' : String} (t : Text) (hne : (group', key') ≠ (group, key)) :
    ((kf.setValue group key t).getParsed parse group' key').toOption =
      (kf.getParsed parse group' key').toOption := by
  unfold getParsed
  rw [getValue_setValue_ne kf t hne]
  cases kf.getValue group' key' with
  | none => rfl
  | some u => cases parse u <;> rfl

theorem getParsed_setValue_ne_eq_ok {α : Type*} {parse : Text → Option α} {kf : KeyFile}
    {group key group' key' : String} {t : Text} {a : α} (hne : (group', key') ≠ (group, key)) :
    (kf.setValue group key t).getParsed parse group' key' = .ok a ↔
      kf.getParsed parse group' key' = .ok a := by
  unfold getParsed
  rw [getValue_setValue_ne kf t hne]
  cases kf.getValue group' key' with
  | none => simp
  | some u => cases parse u <;> simp

@[simp] theorem getBoolean_setBoolean (kf : KeyFile) (group key : String) (b : Bool) :
    (kf.setBoolean group key b).getBoolean group key = .ok b :=
  getParsed_setValue kf group key (parseBoolean_formatBoolean b)

theorem getUint64_setUint64 (kf : KeyFile) (group key : String) {n : Nat} (hn : n < 2 ^ 64) :
    (kf.setUint64 group key n).getUint64 group key = .ok n :=
  getParsed_setValue kf group key (by simp [toUint64_natCast hn])

theorem getInt64_setInt64 (kf : KeyFile) (group key : String) {i : Int}
    (hlo : -2 ^ 63 ≤ i) (hhi : i < 2 ^ 63) :
    (kf.setInt64 group key i).getInt64 group key = .ok i :=
  getParsed_setValue kf group key (by simp [toInt64_eq_self hlo hhi])

theorem getInteger_setInteger (kf : KeyFile) (group key : String) {i : Int} (hlo : 0 ≤ i)
    (hhi : i < 2 ^ 31) : (kf.setInteger group key i).getInteger group key = .ok i :=
  getParsed_setValue kf group key (parseInteger_formatInt hlo hhi)

@[simp] theorem getString_setString (kf : KeyFile) (group key : String) (t : Text) :
    (kf.setString group key t).getString group key = .ok t :=
  getParsed_setValue kf group key (parseString_formatString true t)

theorem getInt64_lt {kf : KeyFile} {group key : String} {i : Int}
    (h : kf.getInt64 group key = .ok i) : i < 2 ^ 63 := by
  unfold getInt64 getParsed at h
  split at h
  · cases h
  split at h
  · cases h
  · rename_i a hparse
    cases h
    obtain ⟨n, -, rfl⟩ := Option.map_eq_some_iff.mp hparse
    exact toInt64_lt n

end KeyFile

end EventRecorder.Theory
