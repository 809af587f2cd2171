-- The bitwise reflected CRC over a byte memory, for any polynomial, with the
-- loop that reads one four-byte window of the memory as zeros.
import Stm32Vibe.Lib.LittleEndian

namespace reflected_crc

open little_endian

/-- The polynomial of CRC-32, as zlib has it. -/
def CRC32 : UInt32 := 0xEDB88320

variable (poly : UInt32)

/-- One bit of the remainder. -/
def shiftBit (crc : UInt32) : UInt32 :=
  if crc &&& 1 ≠ 0 then (crc >>> 1) ^^^ poly else crc >>> 1

/-- One byte of the input. -/
def update (crc : UInt32) (value : UInt8) : UInt32 :=
  Nat.repeat (shiftBit poly) 8 (crc ^^^ value.toUInt32)

/-- The loop over the first `n` bytes, with the initial and the final inversion. -/
def overMemory (m : Memory) (n : Nat) : UInt32 :=
  (List.range n).foldl (fun crc index => update poly crc (m index)) 0xFFFFFFFF ^^^ 0xFFFFFFFF

/-- A memory with the four bytes from `w` on read as zeros. -/
def zeroWindow (m : Memory) (w : Nat) : Memory := fun index =>
  if w ≤ index ∧ index < w + 4 then 0 else m index

/-- The CRC of a list of bytes. -/
def overList (bytes : List UInt8) : UInt32 :=
  bytes.foldl (update poly) 0xFFFFFFFF ^^^ 0xFFFFFFFF

/-- The CRC reads only the first `n` bytes. -/
theorem overMemory_congr {m m' : Memory} {n : Nat} (h : ∀ i < n, m i = m' i) :
    overMemory poly m n = overMemory poly m' n := by
  unfold overMemory
  congr 1
  apply List.foldl_ext
  intro crc i hi
  rw [h i (List.mem_range.mp hi)]

/-- What stands in the window does not change the CRC. -/
theorem overMemory_zeroWindow_congr {m m' : Memory} {n w : Nat}
    (h : ∀ i < n, ¬ (w ≤ i ∧ i < w + 4) → m i = m' i) :
    overMemory poly (zeroWindow m w) n = overMemory poly (zeroWindow m' w) n := by
  apply overMemory_congr
  intro i hi
  unfold zeroWindow
  split
  · rfl
  · exact h i hi ‹_›

/-- The loop over a memory that starts with `bytes` is the CRC of `bytes`. -/
theorem overMemory_eq_overList {bytes : List UInt8} {m : Memory} (h : Holds m bytes) :
    overMemory poly m bytes.length = overList poly bytes := by
  have hmap : bytes = (List.range bytes.length).map m := by
    apply List.ext_getElem (by simp)
    intro i h1 h2
    simp [h i h1]
  unfold overMemory overList
  conv_rhs => rw [hmap, List.foldl_map]

end reflected_crc
