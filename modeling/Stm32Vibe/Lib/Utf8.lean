-- Text by its code points, and its UTF-8. A surrogate is a code point that UTF-8
-- does not encode, so a text has an encoding exactly if it has no surrogate.
import Mathlib.Logic.Basic

namespace code_points

/-- A text by its code points. -/
abbrev Text := List Nat

def ofString (string : String) : Text := string.toList.map Char.toNat

def charOf (point : Nat) : Option Char :=
  if h : point.isValidChar then some (Char.ofNatAux point h) else none

/-- The UTF-8 of a text, if it has one. -/
def utf8 (text : Text) : Option (List UInt8) :=
  (text.mapM charOf).map fun chars => chars.flatMap String.utf8EncodeChar

/-- Every code point of the text is a character. -/
def Encodable (text : Text) : Prop := ∀ point ∈ text, point.isValidChar

instance (text : Text) : Decidable (Encodable text) :=
  inferInstanceAs (Decidable (∀ point ∈ text, point.isValidChar))

theorem charOf_toNat (char : Char) : charOf char.toNat = some char :=
  dif_pos (char.valid : char.toNat.isValidChar)

theorem encodable_chars (chars : List Char) : Encodable (chars.map Char.toNat) := by
  intro point hpoint
  obtain ⟨char, -, rfl⟩ := List.mem_map.mp hpoint
  exact char.valid

theorem encodable_ofString (string : String) : Encodable (ofString string) :=
  encodable_chars string.toList

theorem encodable_append {text more : Text} :
    Encodable (text ++ more) ↔ Encodable text ∧ Encodable more := List.forall_mem_append

theorem mapM_charOf (chars : List Char) : (chars.map Char.toNat).mapM charOf = some chars := by
  induction chars with
  | nil => rfl
  | cons char chars ih =>
    rw [List.map_cons, List.mapM_cons, charOf_toNat, ih]
    rfl

/-- The encoding of characters is what they are encoded to one by one. -/
theorem utf8_chars (chars : List Char) :
    utf8 (chars.map Char.toNat) = some (chars.flatMap String.utf8EncodeChar) := by
  unfold utf8
  rw [mapM_charOf]
  rfl

theorem chars_of_encodable {text : Text} (h : Encodable text) :
    ∃ chars : List Char, text = chars.map Char.toNat := by
  induction text with
  | nil => exact ⟨[], rfl⟩
  | cons point text ih =>
    obtain ⟨chars, hchars⟩ := ih fun other hmem => h other (List.mem_cons_of_mem _ hmem)
    have hvalid := h point (List.mem_cons_self ..)
    have hpoint : (Char.ofNatAux point hvalid).toNat = point := rfl
    exact ⟨Char.ofNatAux point hvalid :: chars, by rw [List.map_cons, hpoint, hchars]⟩

theorem mapM_none {text : Text} {point : Nat} (hmem : point ∈ text)
    (hpoint : ¬ point.isValidChar) : text.mapM charOf = none := by
  induction text with
  | nil => cases hmem
  | cons first text ih =>
    rw [List.mapM_cons]
    rcases List.mem_cons.mp hmem with rfl | hmem
    · have hnone : charOf point = none := dif_neg hpoint
      rw [hnone]
      rfl
    · rw [ih hmem]
      cases charOf first <;> rfl

/-- A text with a surrogate has no encoding. -/
theorem utf8_none {text : Text} (h : ¬ Encodable text) : utf8 text = none := by
  obtain ⟨point, hpoint⟩ := not_forall.mp h
  obtain ⟨hmem, hpoint⟩ := Classical.not_imp.mp hpoint
  unfold utf8
  rw [mapM_none hmem hpoint]
  rfl

end code_points
