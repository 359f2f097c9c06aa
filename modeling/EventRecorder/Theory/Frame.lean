import Mathlib

/-!
# Frame — byte strings behind a little-endian length

A frame is the length of a byte string, in eight bytes with the lowest first, followed by the bytes.
A list of strings is stored as its frames one behind the other.
-/

namespace EventRecorder.Theory

abbrev Bytes := List UInt8

/-! ## 1. Little-endian numbers -/

def toLittleEndian : Nat → Nat → Bytes
  | 0, _ => []
  | width + 1, n => UInt8.ofNat (n % 256) :: toLittleEndian width (n / 256)

def ofLittleEndian : Bytes → Nat
  | [] => 0
  | b :: bs => b.toNat + 256 * ofLittleEndian bs

@[simp] theorem length_toLittleEndian (width n : Nat) :
    (toLittleEndian width n).length = width := by
  induction width generalizing n with
  | zero => rfl
  | succ width ih => rw [toLittleEndian, List.length_cons, ih]

theorem ofLittleEndian_toLittleEndian {width n : Nat} (hn : n < 256 ^ width) :
    ofLittleEndian (toLittleEndian width n) = n := by
  induction width generalizing n with
  | zero => rw [toLittleEndian, ofLittleEndian]; omega
  | succ width ih =>
    -- the low byte is `n % 256` and the bytes above it are those of `n / 256`
    have hdiv : n / 256 < 256 ^ width := by
      rw [Nat.div_lt_iff_lt_mul (by decide), ← pow_succ]
      exact hn
    have hlow : (UInt8.ofNat (n % 256)).toNat = n % 256 := by
      rw [UInt8.toNat_ofNat', Nat.mod_mod]
    rw [toLittleEndian, ofLittleEndian, ih hdiv, hlow]
    omega

theorem toLittleEndian_ofLittleEndian (bytes : Bytes) :
    toLittleEndian bytes.length (ofLittleEndian bytes) = bytes := by
  induction bytes with
  | nil => rfl
  | cons b bytes ih =>
    have hbyte : b.toNat < 256 := b.toNat_lt
    have hlow : (b.toNat + 256 * ofLittleEndian bytes) % 256 = b.toNat := by omega
    have hhigh : (b.toNat + 256 * ofLittleEndian bytes) / 256 = ofLittleEndian bytes := by omega
    rw [List.length_cons, toLittleEndian, ofLittleEndian, hlow, hhigh, UInt8.ofNat_toNat, ih]

theorem ofLittleEndian_lt (bytes : Bytes) : ofLittleEndian bytes < 256 ^ bytes.length := by
  induction bytes with
  | nil => decide
  | cons b bytes ih =>
    have hbyte : b.toNat < 256 := b.toNat_lt
    rw [ofLittleEndian, List.length_cons, pow_succ]
    omega

/-! ## 2. Frames -/

def frame (elem : Bytes) : Bytes :=
  toLittleEndian 8 elem.length ++ elem

def frameLength (elem : Bytes) : Nat :=
  8 + elem.length

@[simp] theorem length_frame (elem : Bytes) : (frame elem).length = frameLength elem := by
  rw [frame, List.length_append, length_toLittleEndian, frameLength]

def encode (elems : List Bytes) : Bytes :=
  elems.flatMap frame

@[simp] theorem encode_nil : encode [] = [] := rfl

theorem encode_cons (elem : Bytes) (elems : List Bytes) :
    encode (elem :: elems) = toLittleEndian 8 elem.length ++ (elem ++ encode elems) := by
  rw [encode, List.flatMap_cons, frame, List.append_assoc]
  rfl

theorem encode_append (elems elems' : List Bytes) :
    encode (elems ++ elems') = encode elems ++ encode elems' :=
  List.flatMap_append

theorem encode_singleton (elem : Bytes) : encode [elem] = frame elem :=
  List.flatMap_singleton frame elem

theorem length_encode_cons (elem : Bytes) (elems : List Bytes) :
    (encode (elem :: elems)).length = 8 + elem.length + (encode elems).length := by
  rw [encode_cons, List.length_append, List.length_append, length_toLittleEndian, Nat.add_assoc]

theorem length_encode_snoc (elems : List Bytes) (last : Bytes) :
    (encode (elems ++ [last])).length = (encode elems).length + 8 + last.length := by
  rw [encode_append, List.length_append, length_encode_cons, encode_nil, List.length_nil,
    Nat.add_zero, Nat.add_assoc]

theorem length_encode (elems : List Bytes) :
    (encode elems).length = (elems.map frameLength).sum := by
  induction elems with
  | nil => rfl
  | cons elem elems ih =>
    rw [encode, List.flatMap_cons, List.length_append, length_frame, List.map_cons, List.sum_cons,
      ← ih]
    rfl

theorem length_le_length_encode (elems : List Bytes) : elems.length ≤ (encode elems).length := by
  induction elems with
  | nil => exact Nat.zero_le _
  | cons elem elems ih =>
    simp only [encode_cons, List.length_append, List.length_cons, length_toLittleEndian]
    omega

theorem sum_length_le_length_encode (elems : List Bytes) :
    (elems.map List.length).sum ≤ (encode elems).length := by
  induction elems with
  | nil => exact Nat.zero_le _
  | cons elem elems ih =>
    simp only [encode_cons, List.length_append, List.map_cons, List.sum_cons,
      length_toLittleEndian]
    omega

theorem length_encode_eq_zero {elems : List Bytes} : (encode elems).length = 0 ↔ elems = [] := by
  cases elems with
  | nil => simp
  | cons elem elems => simp [encode_cons]

/-- Frames up to the first empty element; what is behind them begins with a length of zero. -/
theorem encode_takeWhile (elems : List Bytes) :
    ∃ tail, encode elems = encode (elems.takeWhile (· ≠ [])) ++ tail ∧
      (tail = [] ∨ ∃ more, tail = toLittleEndian 8 0 ++ more) ∧
      (tail = [] ↔ elems.takeWhile (· ≠ []) = elems) := by
  have hwhole := @List.takeWhile_append_dropWhile _ (· ≠ []) elems
  refine ⟨encode (elems.dropWhile (· ≠ [])), ?_, ?_, ?_⟩
  · rw [← encode_append, hwhole]
  · cases hrest : elems.dropWhile (· ≠ []) with
    | nil => exact .inl rfl
    | cons elem rest =>
      right
      have hempty : elem = [] := by
        have hhead := List.head?_dropWhile_not (· ≠ []) elems
        rw [hrest] at hhead
        simpa using hhead
      exact ⟨encode rest, by rw [hempty]; rfl⟩
  · rw [← List.length_eq_zero_iff, length_encode_eq_zero]
    constructor
    · intro hnone
      rwa [hnone, List.append_nil] at hwhole
    · intro hall
      rw [hall] at hwhole
      exact List.append_right_eq_self.mp hwhole

/-- What comes behind does not shorten the front. -/
theorem takeWhile_prefix_append (elems elems' : List Bytes) :
    elems.takeWhile (· ≠ []) <+: (elems ++ elems').takeWhile (· ≠ []) := by
  rw [List.takeWhile_append]
  split
  · exact (List.takeWhile_prefix _).trans (List.prefix_append _ _)
  · exact List.prefix_rfl

theorem ne_nil_of_mem_takeWhile {elems : List Bytes} {elem : Bytes}
    (helem : elem ∈ elems.takeWhile (· ≠ [])) : elem ≠ [] := by
  have hkept := List.mem_takeWhile_imp helem
  simpa using hkept

end EventRecorder.Theory
