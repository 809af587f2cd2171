-- Rows of unsigned integers of one, two or four bytes each, packed one after
-- the other with the least significant byte first. An integer that does not
-- fit its field is refused, and a byte string is read only at its exact length.
import Stm32Vibe.Lib.LittleEndian

namespace packed_fields

open little_endian

/-- The codes of a format: a byte, a half word, a word. -/
inductive Code where
  | B
  | H
  | I
deriving DecidableEq, Repr

def Code.width : Code → Nat
  | .B => 1
  | .H => 2
  | .I => 4

/-- The `width` low bytes of a number. -/
def bytesOf : Nat → Nat → List UInt8
  | 0, _ => []
  | width + 1, n => n.toUInt8 :: bytesOf width (n / 256)

def valueOf : List UInt8 → Nat
  | [] => 0
  | byte :: bytes => byte.toNat + 256 * valueOf bytes

/-- The integer fits a field of the code. -/
def Fits (code : Code) (value : Int) : Prop := 0 ≤ value ∧ value < 256 ^ code.width

instance (code : Code) (value : Int) : Decidable (Fits code value) :=
  inferInstanceAs (Decidable (_ ∧ _))

def packFields : List Code → List Int → Option (List UInt8)
  | [], [] => some []
  | code :: format, value :: values =>
    if Fits code value then
      (packFields format values).map (bytesOf code.width value.toNat ++ ·)
    else none
  | _, _ => none

def size (format : List Code) : Nat := (format.map Code.width).sum

def fieldsOf : List Code → List UInt8 → List Int
  | [], _ => []
  | code :: format, bytes =>
    (valueOf (bytes.take code.width) : Int) :: fieldsOf format (bytes.drop code.width)

def unpackFields (format : List Code) (bytes : List UInt8) : Option (List Int) :=
  if bytes.length = size format then some (fieldsOf format bytes) else none

/-! ## One field -/

theorem bytesOf_length (width n : Nat) : (bytesOf width n).length = width := by
  induction width generalizing n with
  | zero => rfl
  | succ width ih => rw [bytesOf, List.length_cons, ih]

theorem valueOf_bytesOf {width n : Nat} (h : n < 256 ^ width) :
    valueOf (bytesOf width n) = n := by
  induction width generalizing n with
  | zero =>
    rw [pow_zero] at h
    simp [bytesOf, valueOf]
    omega
  | succ width ih =>
    have hrest : n / 256 < 256 ^ width := by
      rw [pow_succ] at h
      exact Nat.div_lt_of_lt_mul (by rwa [Nat.mul_comm])
    simp only [bytesOf, valueOf, ih hrest]
    rw [UInt8.toNat_ofNat']
    omega

theorem bytesOf_byte (b : UInt8) : bytesOf 1 b.toNat = [b] := by
  simp [bytesOf]

theorem bytesOf_half (h : UInt16) : bytesOf 2 h.toNat = unpackHalf h := by
  have hlt := h.toNat_lt
  simp only [bytesOf, unpackHalf, List.cons.injEq, and_true]
  constructor
  · apply UInt8.toNat_inj.mp
    simp
  · apply UInt8.toNat_inj.mp
    simp [Nat.shiftRight_eq_div_pow]

theorem bytesOf_word (w : UInt32) : bytesOf 4 w.toNat = unpack w := by
  have hlane : ∀ k < 4, lane w k = (w.toNat / 256 ^ k).toUInt8 := by
    intro k hk
    apply UInt8.toNat_inj.mp
    have hshift : (8 * k).toUInt32.toNat % 32 = 8 * k := by
      rw [Nat.toUInt32, UInt32.toNat_ofNat']
      omega
    unfold lane
    rw [UInt32.toNat_toUInt8, UInt32.toNat_shiftRight, hshift, Nat.shiftRight_eq_div_pow,
      Nat.toUInt8, UInt8.toNat_ofNat', pow_mul, show (2 ^ 8 : Nat) = 256 from rfl]
  unfold unpack
  rw [hlane 0 (by omega), hlane 1 (by omega), hlane 2 (by omega), hlane 3 (by omega)]
  simp [bytesOf, Nat.div_div_eq_div_mul]

theorem valueOf_byte (b : UInt8) : valueOf [b] = b.toNat := by
  simp [valueOf]

theorem valueOf_half (b0 b1 : UInt8) : valueOf [b0, b1] = (packHalf b0 b1).toNat := by
  have hbytes : unpackHalf (packHalf b0 b1) = [b0, b1] := by simp [unpackHalf]
  rw [← hbytes, ← bytesOf_half]
  exact valueOf_bytesOf (packHalf b0 b1).toNat_lt

theorem valueOf_word (b0 b1 b2 b3 : UInt8) :
    valueOf [b0, b1, b2, b3] = (pack b0 b1 b2 b3).toNat := by
  have hbytes : unpack (pack b0 b1 b2 b3) = [b0, b1, b2, b3] := by
    have hlane : ∀ k < 4, lane (pack b0 b1 b2 b3) k = [b0, b1, b2, b3].getD k 0 := fun k hk =>
      lane_pack (fun k => [b0, b1, b2, b3].getD k 0) hk
    unfold unpack
    rw [hlane 0 (by omega), hlane 1 (by omega), hlane 2 (by omega), hlane 3 (by omega)]
    rfl
  rw [← hbytes, ← bytesOf_word]
  exact valueOf_bytesOf (pack b0 b1 b2 b3).toNat_lt

/-! ## Rows -/

theorem packFields_nil : packFields [] [] = some [] := rfl

theorem packFields_cons {code : Code} {value : Int} (h : Fits code value) (format : List Code)
    (values : List Int) :
    packFields (code :: format) (value :: values) =
      (packFields format values).map (bytesOf code.width value.toNat ++ ·) := by
  rw [packFields, if_pos h]

/-- A field that does not fit spoils the row. -/
theorem packFields_fits {code : Code} {value : Int} {format : List Code} {values : List Int}
    {bytes : List UInt8} (h : packFields (code :: format) (value :: values) = some bytes) :
    Fits code value ∧ ∃ rest, packFields format values = some rest := by
  rw [packFields] at h
  split at h
  · obtain ⟨rest, hrest, -⟩ := Option.map_eq_some_iff.mp h
    exact ⟨‹_›, rest, hrest⟩
  · cases h

theorem fits_byte (b : UInt8) : Fits .B b.toNat := by
  have hlt := b.toNat_lt
  refine ⟨Int.natCast_nonneg _, ?_⟩
  show (b.toNat : Int) < 256 ^ 1
  omega

theorem fits_half (h : UInt16) : Fits .H h.toNat := by
  have hlt := h.toNat_lt
  refine ⟨Int.natCast_nonneg _, ?_⟩
  show (h.toNat : Int) < 256 ^ 2
  omega

theorem fits_word (w : UInt32) : Fits .I w.toNat := by
  have hlt := w.toNat_lt
  refine ⟨Int.natCast_nonneg _, ?_⟩
  show (w.toNat : Int) < 256 ^ 4
  omega

/-- The next field of a row that is read from an offset on. -/
theorem fieldsOf_drop (code : Code) (format : List Code) (bytes : List UInt8) (offset : Nat) :
    fieldsOf (code :: format) (bytes.drop offset) =
      (valueOf ((bytes.drop offset).take code.width) : Int) ::
        fieldsOf format (bytes.drop (offset + code.width)) := by
  rw [fieldsOf, List.drop_drop]

end packed_fields
