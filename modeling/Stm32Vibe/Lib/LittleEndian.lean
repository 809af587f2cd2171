-- Words in a byte memory, least significant byte first. `pack` joins four
-- bytes into a word and `lane` takes them out again.
import Mathlib

namespace little_endian

/-- A byte memory, from an index to the byte there. -/
abbrev Memory := Nat → UInt8

/-- Byte `k` of a word. Byte 0 is the least significant. -/
def lane (w : UInt32) (k : Nat) : UInt8 := (w >>> (8 * k).toUInt32).toUInt8

def pack (b0 b1 b2 b3 : UInt8) : UInt32 :=
  b0.toUInt32 ||| (b1.toUInt32 <<< 8) ||| (b2.toUInt32 <<< 16) ||| (b3.toUInt32 <<< 24)

/-- The word that starts at index `i`. -/
def readWord (m : Memory) (i : Nat) : UInt32 := pack (m i) (m (i + 1)) (m (i + 2)) (m (i + 3))

/-- The four bytes of a word, in memory order. -/
def unpack (w : UInt32) : List UInt8 := [lane w 0, lane w 1, lane w 2, lane w 3]

/-- The bytes of a row of words. -/
def unpackAll (ws : List UInt32) : List UInt8 := ws.flatMap unpack

/-! ## The round trip -/

theorem lane_bit (w : UInt32) (k : Nat) (hk : k < 4) (i : Nat) :
    (lane w k).toBitVec.getLsbD i = (decide (i < 8) && w.toBitVec.getLsbD (8 * k + i)) := by
  have h : 8 * k % 32 = 8 * k := by omega
  simp [lane, h]

theorem pack_bit (b0 b1 b2 b3 : UInt8) (i : Nat) (hi : i < 32) :
    (pack b0 b1 b2 b3).toBitVec.getLsbD i =
      if i < 8 then b0.toBitVec.getLsbD i
      else if i < 16 then b1.toBitVec.getLsbD (i - 8)
      else if i < 24 then b2.toBitVec.getLsbD (i - 16)
      else b3.toBitVec.getLsbD (i - 24) := by
  have high : ∀ (b : UInt8) (j : Nat), 8 ≤ j → b.toBitVec.getLsbD j = false := fun b j hj =>
    BitVec.getLsbD_of_ge _ _ hj
  simp only [pack, UInt32.toBitVec_or, UInt32.toBitVec_shiftLeft, UInt8.toBitVec_toUInt32,
    BitVec.getLsbD_or]
  simp only [UInt32.toBitVec_ofNat, BitVec.shiftLeft_eq',
    BitVec.getLsbD_shiftLeft, BitVec.getLsbD_setWidth, hi, decide_true, Bool.true_and]
  split_ifs with h1 h2 h3
  · simp [h1, show i < 16 by omega, show i < 24 by omega]
  · simp [h1, h2, show i < 24 by omega, high b0 i (by omega), show i - 8 < 32 by omega]
  · simp [h1, h2, h3, high b0 i (by omega), high b1 (i - 8) (by omega),
      show i - 16 < 32 by omega]
  · simp [h1, h2, h3, high b0 i (by omega), high b1 (i - 8) (by omega),
      high b2 (i - 16) (by omega), show i - 24 < 32 by omega]

/-- The four bytes of a word make the word. -/
theorem pack_lanes (w : UInt32) : pack (lane w 0) (lane w 1) (lane w 2) (lane w 3) = w := by
  apply UInt32.toBitVec_inj.mp
  apply BitVec.eq_of_getLsbD_eq
  intro i hi
  rw [pack_bit _ _ _ _ _ hi]
  split_ifs with h1 h2 h3
  · rw [lane_bit _ _ (by omega)]; simp [h1]
  · rw [lane_bit _ _ (by omega)]; simp [show i - 8 < 8 by omega, show 8 + (i - 8) = i by omega]
  · rw [lane_bit _ _ (by omega)]; simp [show i - 16 < 8 by omega, show 16 + (i - 16) = i by omega]
  · rw [lane_bit _ _ (by omega)]; simp [show i - 24 < 8 by omega, show 24 + (i - 24) = i by omega]

/-- Taking a byte out of four joined bytes. -/
theorem lane_pack (b : Nat → UInt8) {k : Nat} (hk : k < 4) :
    lane (pack (b 0) (b 1) (b 2) (b 3)) k = b k := by
  apply UInt8.toBitVec_inj.mp
  apply BitVec.eq_of_getLsbD_eq
  intro i hi
  rw [lane_bit _ _ hk, pack_bit _ _ _ _ _ (by omega)]
  simp only [hi, decide_true, Bool.true_and]
  rcases (by omega : k = 0 ∨ k = 1 ∨ k = 2 ∨ k = 3) with rfl | rfl | rfl | rfl
  · simp [hi]
  · rw [if_neg (by omega), if_pos (by omega), show 8 * 1 + i - 8 = i by omega]
  · rw [if_neg (by omega), if_neg (by omega), if_pos (by omega), show 8 * 2 + i - 16 = i by omega]
  · rw [if_neg (by omega), if_neg (by omega), if_neg (by omega),
      show 8 * 3 + i - 24 = i by omega]

theorem lane_zero (k : Nat) : lane 0 k = 0 := by simp [lane]

theorem readWord_congr {m n : Memory} {i : Nat} (h : ∀ k < 4, m (i + k) = n (i + k)) :
    readWord m i = readWord n i := by
  have h0 := h 0 (by omega)
  have h1 := h 1 (by omega)
  have h2 := h 2 (by omega)
  have h3 := h 3 (by omega)
  simp only [readWord, Nat.add_zero] at *
  rw [h0, h1, h2, h3]

/-- Four bytes that are those of a word read as the word. -/
theorem readWord_of_lanes {m : Memory} {i : Nat} {w : UInt32} (h : ∀ j < 4, m (i + j) = lane w j) :
    readWord m i = w := by
  have h0 := h 0 (by omega)
  rw [Nat.add_zero] at h0
  unfold readWord
  rw [h0, h 1 (by omega), h 2 (by omega), h 3 (by omega)]
  exact pack_lanes w

/-! ## Half words -/

def packHalf (b0 b1 : UInt8) : UInt16 := b0.toUInt16 ||| (b1.toUInt16 <<< 8)

def unpackHalf (h : UInt16) : List UInt8 := [h.toUInt8, (h >>> 8).toUInt8]

theorem packHalf_toNat (b0 b1 : UInt8) : (packHalf b0 b1).toNat = 2 ^ 8 * b1.toNat + b0.toNat := by
  have h0 := b0.toNat_lt
  have h1 := b1.toNat_lt
  have hshift : (b1.toUInt16 <<< 8).toNat = 2 ^ 8 * b1.toNat := by
    simp [UInt16.toNat_shiftLeft, Nat.shiftLeft_eq]
    omega
  unfold packHalf
  rw [UInt16.toNat_or, hshift, UInt8.toNat_toUInt16, Nat.or_comm]
  exact (Nat.two_pow_add_eq_or_of_lt h0 b1.toNat).symm

/-- The two bytes of a half word make the half word. -/
@[simp] theorem packHalf_bytes (h : UInt16) : packHalf h.toUInt8 (h >>> 8).toUInt8 = h := by
  have hlt := h.toNat_lt
  apply UInt16.toNat_inj.mp
  rw [packHalf_toNat]
  simp [Nat.shiftRight_eq_div_pow]
  omega

@[simp] theorem low_packHalf (b0 b1 : UInt8) : (packHalf b0 b1).toUInt8 = b0 := by
  have h0 := b0.toNat_lt
  apply UInt8.toNat_inj.mp
  rw [UInt16.toNat_toUInt8, packHalf_toNat]
  omega

@[simp] theorem high_packHalf (b0 b1 : UInt8) : (packHalf b0 b1 >>> 8).toUInt8 = b1 := by
  have h0 := b0.toNat_lt
  have h1 := b1.toNat_lt
  apply UInt8.toNat_inj.mp
  simp [Nat.shiftRight_eq_div_pow, packHalf_toNat]
  omega

/-! ## Words with cleared bits -/

/-- Clearing the low `k` bits of a word. -/
theorem clear_low (x mask : UInt32) {k : Nat}
    (hmask : ∀ i < 32, mask.toBitVec.getLsbD i = decide (i < k)) :
    (x &&& ~~~mask).toNat = x.toNat / 2 ^ k * 2 ^ k := by
  apply Nat.eq_of_testBit_eq
  intro i
  rw [Nat.testBit_mul_two_pow, Nat.testBit_div_two_pow]
  by_cases hi : i < 32
  · have hbit : (x &&& ~~~mask).toNat.testBit i = (x &&& ~~~mask).toBitVec.getLsbD i := rfl
    rw [hbit]
    simp only [UInt32.toBitVec_and, UInt32.toBitVec_not, BitVec.getLsbD_and, BitVec.getLsbD_not,
      hmask i hi, hi]
    by_cases hk : i < k
    · simp [hk, show ¬ k ≤ i by omega]
    · have hki : k ≤ i := by omega
      simp only [hk, hki, Nat.sub_add_cancel, decide_true, decide_false, Bool.true_and,
        Bool.not_false, Bool.and_true]
      rfl
  · have hpast : ∀ w : UInt32, w.toNat.testBit i = false := fun w =>
      Nat.testBit_lt_two_pow
        (Nat.lt_of_lt_of_le w.toNat_lt (Nat.pow_le_pow_right (by omega) (by omega)))
    rw [hpast]
    by_cases hk : k ≤ i
    · simp [hk, hpast]
    · simp [hk]

/-! ## A row of words in memory -/

theorem length_unpackAll (ws : List UInt32) : (unpackAll ws).length = 4 * ws.length := by
  induction ws with
  | nil => rfl
  | cons w ws ih =>
    simp only [unpackAll, List.flatMap_cons, List.length_append] at ih ⊢
    rw [ih]
    simp only [unpack, List.length_cons, List.length_nil]
    omega

/-- Byte `j` of a row of words is a byte of word `j / 4`. -/
theorem getElem?_unpackAll (ws : List UInt32) (j : Nat) :
    (unpackAll ws)[j]? = ws[j / 4]?.map (fun w => lane w (j % 4)) := by
  induction ws generalizing j with
  | nil => simp [unpackAll]
  | cons w ws ih =>
    have hcons : unpackAll (w :: ws) = unpack w ++ unpackAll ws := rfl
    rw [hcons]
    by_cases hj : j < 4
    · rw [List.getElem?_append_left (by simpa [unpack] using hj), Nat.div_eq_of_lt hj,
        Nat.mod_eq_of_lt hj]
      rcases (by omega : j = 0 ∨ j = 1 ∨ j = 2 ∨ j = 3) with h | h | h | h <;> subst h <;> rfl
    · obtain ⟨k, rfl⟩ : ∃ k, j = k + 4 := ⟨j - 4, by omega⟩
      rw [List.getElem?_append_right (by simp [unpack])]
      have hlen : k + 4 - (unpack w).length = k := by simp [unpack]
      rw [hlen, ih, Nat.add_div_right k (by decide), Nat.add_mod_right]
      rfl

/-! ## A memory that starts with a list of bytes -/

/-- The memory starts with the bytes. -/
def Holds (m : Memory) (bytes : List UInt8) : Prop :=
  ∀ (i : Nat) (hi : i < bytes.length), m i = bytes[i]

theorem Holds.getElem? {m : Memory} {bytes : List UInt8} (h : Holds m bytes) {i : Nat} {b : UInt8}
    (hb : bytes[i]? = some b) : m i = b := by
  obtain ⟨hi, hget⟩ := List.getElem?_eq_some_iff.mp hb
  rw [h i hi, hget]

theorem holds_of_getElem? {m : Memory} {bytes : List UInt8}
    (h : ∀ i b, bytes[i]? = some b → m i = b) : Holds m bytes :=
  fun i hi => h i _ (List.getElem?_eq_getElem hi)

theorem holds_nil (m : Memory) : Holds m [] := fun i hi => absurd hi (Nat.not_lt_zero i)

theorem Holds.congr {m m' : Memory} {bytes : List UInt8} (h : Holds m bytes)
    (hm : ∀ i < bytes.length, m' i = m i) : Holds m' bytes :=
  fun i hi => (hm i hi).trans (h i hi)

/-- A memory that starts with `bytes` and goes on with `more` starts with both. -/
theorem Holds.append {m : Memory} {bytes more : List UInt8} (h : Holds m bytes)
    (hm : ∀ (k : Nat) (hk : k < more.length), m (bytes.length + k) = more[k]) :
    Holds m (bytes ++ more) := by
  intro i hi
  by_cases hlt : i < bytes.length
  · rw [List.getElem_append_left hlt]
    exact h i hlt
  · rw [List.length_append] at hi
    rw [List.getElem_append_right (by omega)]
    have hk := hm (i - bytes.length) (by omega)
    rwa [show bytes.length + (i - bytes.length) = i by omega] at hk

end little_endian
