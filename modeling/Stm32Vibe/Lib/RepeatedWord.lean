-- A word that is written again and again. A stretch of it starts at any offset,
-- and a cut of a stretch is a stretch.
import Mathlib.Data.List.GetD

namespace repeated_word

universe u

section
variable {α : Type u} [Inhabited α] (word : List α)

/-- The `count` letters from `offset` on. -/
def stretch (offset count : Nat) : List α :=
  (List.range count).map fun index => word.getD ((offset + index) % word.length) default

@[simp] theorem length_stretch (offset count : Nat) :
    (stretch word offset count).length = count := by
  simp [stretch]

@[simp] theorem stretch_zero (offset : Nat) : stretch word offset 0 = [] := rfl

theorem getElem_stretch {offset count index : Nat}
    (h : index < (stretch word offset count).length) :
    (stretch word offset count)[index] =
      word.getD ((offset + index) % word.length) default := by
  simp [stretch]

theorem drop_stretch (offset count size : Nat) :
    (stretch word offset count).drop size = stretch word (offset + size) (count - size) := by
  apply List.ext_getElem
  · simp
  · intro index h h'
    rw [List.getElem_drop, getElem_stretch, getElem_stretch, Nat.add_assoc]

theorem take_stretch (offset count size : Nat) :
    (stretch word offset count).take size = stretch word offset (min size count) := by
  apply List.ext_getElem
  · simp
  · intro index h h'
    rw [List.getElem_take, getElem_stretch, getElem_stretch]

theorem stretch_append (offset count more : Nat) :
    stretch word offset count ++ stretch word (offset + count) more =
      stretch word offset (count + more) := by
  have htake := take_stretch word offset (count + more) count
  have hdrop := drop_stretch word offset (count + more) count
  rw [Nat.min_eq_left (by omega)] at htake
  rw [Nat.add_sub_cancel_left] at hdrop
  rw [← htake, ← hdrop, List.take_append_drop]

/-- Only the place in the word counts. -/
theorem stretch_mod (offset count : Nat) :
    stretch word (offset % word.length) count = stretch word offset count := by
  apply List.ext_getElem
  · simp
  · intro index h h'
    rw [getElem_stretch, getElem_stretch, Nat.mod_add_mod]

theorem stretch_word : stretch word 0 word.length = word := by
  apply List.ext_getElem
  · simp
  · intro index h h'
    rw [getElem_stretch, Nat.zero_add, Nat.mod_eq_of_lt h', List.getD_eq_getElem _ _ h']

theorem drop_word (offset : Nat) :
    word.drop offset = stretch word offset (word.length - offset) := by
  have hdrop := drop_stretch word 0 word.length offset
  rwa [stretch_word, Nat.zero_add] at hdrop

theorem stretch_mul_length (copies count : Nat) :
    stretch word (copies * word.length) count = stretch word 0 count := by
  rw [← stretch_mod, Nat.mul_mod_left]

/-- Copies of the word in a row are a stretch. -/
theorem flatten_replicate (copies : Nat) :
    (List.replicate copies word).flatten = stretch word 0 (copies * word.length) := by
  induction copies with
  | zero => simp
  | succ copies ih =>
    have hlast := stretch_append word 0 (copies * word.length) word.length
    rw [Nat.zero_add, stretch_mul_length, stretch_word] at hlast
    rw [List.replicate_succ', List.flatten_append, ih, List.flatten_singleton, hlast,
      Nat.succ_mul]

end

end repeated_word
