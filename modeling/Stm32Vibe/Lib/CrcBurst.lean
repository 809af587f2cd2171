-- What a reflected CRC detects. The remainder is linear in exclusive or, and a
-- polynomial with its top bit set takes no burst of 32 bits to zero: going back
-- from zero, each bit at most doubles the remainder.
import Stm32Vibe.Lib.Crc

namespace reflected_crc

open little_endian

variable (poly : UInt32)

/-! ## The remainder is linear -/

/-- The remainder after a row of bytes, without the inversions. -/
def remainder (crc : UInt32) (bytes : List UInt8) : UInt32 := bytes.foldl (update poly) crc

theorem low_bit (x : UInt32) : x &&& 1 ≠ 0 ↔ x.toNat % 2 = 1 := by
  rw [ne_eq, ← UInt32.toNat_inj, UInt32.toNat_and]
  simp

theorem xor_low_bit (a b : UInt32) : (a ^^^ b).toNat % 2 = (a.toNat + b.toNat) % 2 := by
  rw [UInt32.toNat_xor]
  exact Nat.xor_mod_two_eq

theorem shiftBit_xor (a b : UInt32) :
    shiftBit poly (a ^^^ b) = shiftBit poly a ^^^ shiftBit poly b := by
  have hxor := xor_low_bit a b
  have hshift : (a ^^^ b) >>> 1 = (a >>> 1) ^^^ (b >>> 1) := by
    apply UInt32.toNat_inj.mp
    simp [Nat.shiftRight_xor_distrib]
  unfold shiftBit
  simp only [low_bit, hxor, hshift]
  rcases Nat.mod_two_eq_zero_or_one a.toNat with ha | ha <;>
    rcases Nat.mod_two_eq_zero_or_one b.toNat with hb | hb
  · have hsum : (a.toNat + b.toNat) % 2 = 0 := by omega
    simp [ha, hb, hsum]
  · have hsum : (a.toNat + b.toNat) % 2 = 1 := by omega
    simp [ha, hb, hsum, UInt32.xor_assoc]
  · have hsum : (a.toNat + b.toNat) % 2 = 1 := by omega
    simp only [ha, hb, hsum, if_true, Nat.zero_ne_one, if_false]
    ac_rfl
  · have hsum : (a.toNat + b.toNat) % 2 = 0 := by omega
    simp only [ha, hb, hsum, if_true, Nat.zero_ne_one, if_false]
    have hcancel : (a >>> 1 ^^^ poly) ^^^ (b >>> 1 ^^^ poly) =
        (a >>> 1 ^^^ b >>> 1) ^^^ (poly ^^^ poly) := by ac_rfl
    rw [hcancel, UInt32.xor_self, UInt32.xor_zero]

theorem repeat_xor (n : Nat) (a b : UInt32) :
    Nat.repeat (shiftBit poly) n (a ^^^ b) =
      Nat.repeat (shiftBit poly) n a ^^^ Nat.repeat (shiftBit poly) n b := by
  induction n with
  | zero => rfl
  | succ n ih => simp only [Nat.repeat, ih, shiftBit_xor]

theorem update_xor (a b : UInt32) (x y : UInt8) :
    update poly (a ^^^ b) (x ^^^ y) = update poly a x ^^^ update poly b y := by
  unfold update
  rw [← repeat_xor, UInt8.toUInt32_xor]
  congr 1
  ac_rfl

theorem remainder_xor (a b : UInt32) {bytes errors : List UInt8}
    (h : bytes.length = errors.length) :
    remainder poly (a ^^^ b) (List.zipWith (· ^^^ ·) bytes errors) =
      remainder poly a bytes ^^^ remainder poly b errors := by
  induction bytes generalizing a b errors with
  | nil =>
    cases errors with
    | nil => rfl
    | cons e errors => simp at h
  | cons x bytes ih =>
    cases errors with
    | nil => simp at h
    | cons e errors =>
      have hrest := ih (update poly a x) (update poly b e) (by simpa using h)
      rw [← update_xor] at hrest
      exact hrest

/-! ## A burst leaves a remainder -/

variable {poly}

/-- An even remainder moves down. -/
theorem shiftBit_even {x : UInt32} (h : x.toNat % 2 = 0) :
    (shiftBit poly x).toNat = x.toNat / 2 := by
  have hlow : ¬ (x &&& 1 ≠ 0) := by
    rw [low_bit]
    omega
  unfold shiftBit
  rw [if_neg hlow]
  simp [Nat.shiftRight_eq_div_pow]

/-- An odd remainder takes the top bit of the polynomial. -/
theorem shiftBit_odd (hpoly : 2 ^ 31 ≤ poly.toNat) {x : UInt32} (h : x.toNat % 2 = 1) :
    2 ^ 31 ≤ (shiftBit poly x).toNat := by
  have hx := x.toNat_lt
  have hp := poly.toNat_lt
  have hlow : x &&& 1 ≠ 0 := (low_bit x).mpr h
  have htop : poly.toNat.testBit 31 = true := by
    rw [Nat.testBit_eq_decide_div_mod_eq, decide_eq_true_eq]
    omega
  have hclear : (x >>> 1).toNat.testBit 31 = false := by
    apply Nat.testBit_lt_two_pow
    simp [Nat.shiftRight_eq_div_pow]
    omega
  unfold shiftBit
  rw [if_pos hlow, UInt32.toNat_xor]
  apply Nat.ge_two_pow_of_testBit
  rw [Nat.testBit_xor, htop, hclear]
  rfl

/-- Going back one bit, a small remainder at most doubles. -/
theorem lt_of_shiftBit_lt (hpoly : 2 ^ 31 ≤ poly.toNat) {x : UInt32} {k : Nat} (hk : k ≤ 31)
    (h : (shiftBit poly x).toNat < 2 ^ k) : x.toNat % 2 = 0 ∧ x.toNat < 2 ^ (k + 1) := by
  have hpow : 2 ^ k ≤ 2 ^ 31 := Nat.pow_le_pow_right (by decide) hk
  have heven : x.toNat % 2 = 0 := by
    by_contra hodd
    have hlarge := shiftBit_odd hpoly (by omega : x.toNat % 2 = 1)
    omega
  rw [shiftBit_even heven] at h
  rw [Nat.pow_succ]
  exact ⟨heven, by omega⟩

theorem lt_of_repeat_lt (hpoly : 2 ^ 31 ≤ poly.toNat) {x : UInt32} {k n : Nat}
    (hk : k + n ≤ 32) (h : (Nat.repeat (shiftBit poly) n x).toNat < 2 ^ k) :
    x.toNat < 2 ^ (k + n) := by
  induction n generalizing k with
  | zero => exact h
  | succ n ih =>
    have hstep := (lt_of_shiftBit_lt hpoly (by omega) h).2
    have hall := ih (by omega) hstep
    rwa [show k + 1 + n = k + (n + 1) by omega] at hall

theorem eq_zero_of_repeat (hpoly : 2 ^ 31 ≤ poly.toNat) {x : UInt32} {n : Nat}
    (h : (Nat.repeat (shiftBit poly) n x).toNat = 0) : x.toNat = 0 := by
  induction n with
  | zero => exact h
  | succ n ih =>
    apply ih
    have hstep := lt_of_shiftBit_lt hpoly (by decide : 0 ≤ 31)
      (by rw [show shiftBit poly (Nat.repeat (shiftBit poly) n x) =
        Nat.repeat (shiftBit poly) (n + 1) x from rfl, h]; decide)
    omega

/-- A remainder with `n` clear low bits moves down `n` places. -/
theorem repeat_clear {x : UInt32} {n : Nat} (h : 2 ^ n ∣ x.toNat) :
    (Nat.repeat (shiftBit poly) n x).toNat = x.toNat / 2 ^ n := by
  induction n with
  | zero => simp [Nat.repeat]
  | succ n ih =>
    obtain ⟨q, hq⟩ := h
    have hpow := Nat.two_pow_pos n
    have hdown := ih ⟨2 * q, by rw [hq, Nat.pow_succ, Nat.mul_assoc]⟩
    have hhalf : x.toNat / 2 ^ n = 2 * q := by
      rw [hq, Nat.pow_succ, Nat.mul_assoc, Nat.mul_div_cancel_left _ hpow]
    rw [hhalf] at hdown
    have heven : (Nat.repeat (shiftBit poly) n x).toNat % 2 = 0 := by omega
    rw [Nat.pow_succ, ← Nat.div_div_eq_div_mul, hhalf, ← hdown]
    exact shiftBit_even heven

/-- Bit `i` of a row of bytes, each byte with its least significant bit first. -/
def bit (bytes : List UInt8) (i : Nat) : Bool := (bytes.getD (i / 8) 0).toNat.testBit (i % 8)

theorem bit_cons (b : UInt8) (bytes : List UInt8) {i : Nat} (h : i < 8) :
    bit (b :: bytes) i = b.toNat.testBit i := by
  unfold bit
  rw [Nat.div_eq_of_lt h, Nat.mod_eq_of_lt h]
  rfl

@[simp] theorem bit_cons_add (b : UInt8) (bytes : List UInt8) (i : Nat) :
    bit (b :: bytes) (i + 8) = bit bytes i := by
  unfold bit
  rw [Nat.add_div_right i (by decide), Nat.add_mod_right]
  rfl

theorem bit_past {bytes : List UInt8} {i : Nat} (h : 8 * bytes.length ≤ i) :
    bit bytes i = false := by
  unfold bit
  rw [List.getD_eq_default _ _ (by omega)]
  exact Nat.zero_testBit _

/-- A byte whose bits from `m` on are clear. -/
theorem byte_lt {b : UInt8} {m : Nat} (h : ∀ i < 8, m ≤ i → b.toNat.testBit i = false) :
    b.toNat < 2 ^ m := by
  apply Nat.lt_pow_two_of_testBit
  intro i hi
  by_cases h8 : i < 8
  · exact h i h8 hi
  · have hb := b.toNat_lt
    exact Nat.testBit_lt_two_pow
      (Nat.lt_of_lt_of_le hb (Nat.pow_le_pow_right (by decide) (by omega)))

/-- Before `m` last bits that clear the remainder, the remainder has no higher bits. -/
theorem lt_of_remainder_zero (hpoly : 2 ^ 31 ≤ poly.toNat) {bytes : List UInt8} {crc : UInt32}
    {m : Nat} (hm : m ≤ 32) (hbits : ∀ i, m ≤ i → bit bytes i = false)
    (h : remainder poly crc bytes = 0) : crc.toNat < 2 ^ m := by
  induction bytes generalizing crc m with
  | nil =>
    have hzero : crc = 0 := h
    rw [hzero]
    exact Nat.two_pow_pos m
  | cons b bytes ih =>
    have hb : b.toNat < 2 ^ m :=
      byte_lt fun i hi hmi => (bit_cons b bytes hi).symm.trans (hbits i hmi)
    have hrest := ih (by omega : m - 8 ≤ 32)
      (fun i hi => (bit_cons_add b bytes i).symm.trans (hbits (i + 8) (by omega))) h
    have hxor : (crc ^^^ b.toUInt32).toNat < 2 ^ m := by
      by_cases h8 : 8 ≤ m
      · have hback := lt_of_repeat_lt hpoly (by omega : m - 8 + 8 ≤ 32) hrest
        rwa [Nat.sub_add_cancel h8] at hback
      · have hnone : (update poly crc b).toNat = 0 := by
          rw [show m - 8 = 0 by omega] at hrest
          omega
        rw [eq_zero_of_repeat hpoly hnone]
        exact Nat.two_pow_pos m
    have hcrc : crc = (crc ^^^ b.toUInt32) ^^^ b.toUInt32 := by
      rw [UInt32.xor_assoc, UInt32.xor_self, UInt32.xor_zero]
    rw [hcrc, UInt32.toNat_xor]
    exact Nat.xor_lt_two_pow hxor (by simpa using hb)

theorem repeat_add {α : Type} (f : α → α) (m n : Nat) (a : α) :
    Nat.repeat f (m + n) a = Nat.repeat f m (Nat.repeat f n a) := by
  induction m with
  | zero => simp [Nat.repeat]
  | succ m ih =>
    rw [Nat.succ_add]
    exact congrArg f ih

/-- A byte with its first set bit at `s` leaves a bit that `24 + s` more bits cannot clear. -/
theorem first_byte (hpoly : 2 ^ 31 ≤ poly.toNat) {b : UInt8} {s : Nat} (hs : s < 8)
    (hset : b.toNat.testBit s = true) (hclear : ∀ i < s, b.toNat.testBit i = false) :
    2 ^ (24 + s) ≤ (update poly 0 b).toNat := by
  by_contra hlt
  have hdvd : 2 ^ s ∣ b.toUInt32.toNat := by
    apply Nat.dvd_of_mod_eq_zero
    apply Nat.eq_of_testBit_eq
    intro i
    rw [Nat.testBit_mod_two_pow, Nat.zero_testBit]
    by_cases hi : i < s
    · simp [hi, hclear i hi]
    · simp [hi]
  have hdown := @repeat_clear poly b.toUInt32 s hdvd
  have hodd : (Nat.repeat (shiftBit poly) s b.toUInt32).toNat % 2 = 1 := by
    rw [Nat.testBit_eq_decide_div_mod_eq, decide_eq_true_eq] at hset
    rw [hdown]
    simpa using hset
  have hsplit : update poly 0 b =
      Nat.repeat (shiftBit poly) (7 - s)
        (shiftBit poly (Nat.repeat (shiftBit poly) s b.toUInt32)) := by
    have h8 : 8 = (7 - s) + (1 + s) := by omega
    unfold update
    rw [UInt32.zero_xor]
    conv_lhs => rw [h8, repeat_add, repeat_add]
    rfl
  rw [hsplit, Nat.not_le] at hlt
  have hsmall := lt_of_repeat_lt hpoly (by omega : 24 + s + (7 - s) ≤ 32) hlt
  rw [show 24 + s + (7 - s) = 31 by omega] at hsmall
  have hlarge := shiftBit_odd hpoly hodd
  omega

/-- A burst of at most 32 bits leaves a remainder. -/
theorem remainder_burst (hpoly : 2 ^ 31 ≤ poly.toNat) {bytes : List UInt8} {s : Nat}
    (hset : bit bytes s = true) (hbits : ∀ i, bit bytes i = true → s ≤ i ∧ i < s + 32) :
    remainder poly 0 bytes ≠ 0 := by
  induction bytes generalizing s with
  | nil => simp [bit] at hset
  | cons b bytes ih =>
    by_cases hs : s < 8
    · intro hzero
      rw [bit_cons b bytes hs] at hset
      have hclear : ∀ i < s, b.toNat.testBit i = false := by
        intro i hi
        by_contra hone
        rw [Bool.not_eq_false, ← bit_cons b bytes (by omega)] at hone
        have hafter := (hbits i hone).1
        omega
      have hrest : ∀ i, 24 + s ≤ i → bit bytes i = false := by
        intro i hi
        by_contra hone
        rw [Bool.not_eq_false, ← bit_cons_add b bytes] at hone
        have hbefore := (hbits (i + 8) hone).2
        omega
      have hsmall := lt_of_remainder_zero hpoly (by omega : 24 + s ≤ 32) hrest hzero
      have hlarge := first_byte hpoly hs hset hclear
      omega
    · obtain ⟨t, rfl⟩ : ∃ t, s = t + 8 := ⟨s - 8, by omega⟩
      have hb : b.toNat = 0 := by
        have hlt : b.toNat < 2 ^ 0 := by
          apply byte_lt
          intro i hi _
          by_contra hone
          rw [Bool.not_eq_false, ← bit_cons b bytes hi] at hone
          have hafter := (hbits i hone).1
          omega
        omega
      have hnone : update poly 0 b = 0 := by
        have hbyte : b = 0 := UInt8.toNat_inj.mp hb
        rw [hbyte]
        apply UInt32.toNat_inj.mp
        exact repeat_clear (Nat.dvd_zero _)
      rw [bit_cons_add] at hset
      have htail := ih hset fun i hi => by
        have hwindow := hbits (i + 8) (by rwa [bit_cons_add])
        omega
      unfold remainder at *
      rwa [List.foldl_cons, hnone]

/-- Feeding the low byte of a remainder moves it down eight places. -/
theorem update_low (x : UInt32) : (update poly x x.toUInt8).toNat = x.toNat / 2 ^ 8 := by
  have hclear : (x ^^^ x.toUInt8.toUInt32).toNat = 2 ^ 8 * (x.toNat / 2 ^ 8) := by
    apply Nat.eq_of_testBit_eq
    intro i
    rw [UInt32.toNat_xor, UInt8.toNat_toUInt32, UInt32.toNat_toUInt8, Nat.testBit_xor,
      Nat.testBit_mod_two_pow, Nat.mul_comm, Nat.testBit_mul_two_pow, Nat.testBit_div_two_pow]
    by_cases hi : i < 8
    · simp [hi, show ¬ 8 ≤ i by omega]
    · simp [hi, show 8 ≤ i by omega]
  have hdown := @repeat_clear poly (x ^^^ x.toUInt8.toUInt32) 8 ⟨_, hclear⟩
  rwa [hclear, Nat.mul_div_cancel_left _ (by decide)] at hdown

/-- The bytes of the remainder itself clear it. -/
theorem remainder_unpack (word : UInt32) : remainder poly word (unpack word) = 0 := by
  have hlane : ∀ k < 4, ∀ x : UInt32, x.toNat = word.toNat / 2 ^ (8 * k) →
      (update poly x (lane word k)).toNat = word.toNat / 2 ^ (8 * (k + 1)) := by
    intro k hk x hx
    have hsame : lane word k = x.toUInt8 := by
      apply UInt8.toNat_inj.mp
      rw [UInt32.toNat_toUInt8, hx]
      unfold lane
      rw [UInt32.toNat_toUInt8, UInt32.toNat_shiftRight, Nat.shiftRight_eq_div_pow]
      rcases (by omega : k = 0 ∨ k = 1 ∨ k = 2 ∨ k = 3) with rfl | rfl | rfl | rfl <;> rfl
    rw [hsame, update_low, hx, Nat.div_div_eq_div_mul, ← Nat.pow_add, Nat.mul_succ]
  have h1 := hlane 0 (by decide) word (by simp)
  have h2 := hlane 1 (by decide) _ h1
  have h3 := hlane 2 (by decide) _ h2
  have h4 := hlane 3 (by decide) _ h3
  apply UInt32.toNat_inj.mp
  have hlast : (remainder poly word (unpack word)).toNat = word.toNat / 2 ^ 32 := h4
  rw [hlast]
  exact Nat.div_eq_of_lt word.toNat_lt

/-- After a row of bytes and its CRC stands the same remainder, whatever the bytes are. -/
theorem remainder_residue {crc final word : UInt32} {bytes : List UInt8}
    (h : remainder poly crc bytes ^^^ final = word) :
    remainder poly crc (bytes ++ unpack word) = remainder poly final [0, 0, 0, 0] := by
  have hfed : remainder poly crc bytes = word ^^^ final := by
    rw [← h, UInt32.xor_assoc, UInt32.xor_self, UInt32.xor_zero]
  have hpadded : unpack word = List.zipWith (· ^^^ ·) (unpack word) [0, 0, 0, 0] := by
    simp [unpack]
  calc remainder poly crc (bytes ++ unpack word)
      = remainder poly (word ^^^ final) (unpack word) := by
        rw [← hfed]
        exact List.foldl_append
    _ = remainder poly word (unpack word) ^^^ remainder poly final [0, 0, 0, 0] := by
        rw [← remainder_xor poly word final (by rfl), ← hpadded]
    _ = remainder poly final [0, 0, 0, 0] := by
        rw [remainder_unpack, UInt32.zero_xor]

/-! ## A burst in a memory -/

/-- A memory with an error pattern over it. -/
def flipped (m errors : Memory) : Memory := fun i => m i ^^^ errors i

/-- Bit `i` of a memory, each byte with its least significant bit first. -/
def memoryBit (m : Memory) (i : Nat) : Bool := (m (i / 8)).toNat.testBit (i % 8)

/-- There are errors, and they all stand in 32 consecutive bits. -/
structure Burst (errors : Memory) : Prop where
  some_bit : ∃ i, memoryBit errors i = true
  short : ∃ start, ∀ i, memoryBit errors i = true → start ≤ i ∧ i < start + 32

theorem byte_of_bit {errors : Memory} {i : Nat} (h : memoryBit errors i = true) :
    errors (i / 8) ≠ 0 := by
  intro hzero
  simp [memoryBit, hzero] at h

theorem Burst.some_byte {errors : Memory} (h : Burst errors) : ∃ i, errors i ≠ 0 := by
  obtain ⟨i, hi⟩ := h.some_bit
  exact ⟨i / 8, byte_of_bit hi⟩

theorem xor_eq_self {x y : UInt8} (h : x ^^^ y = x) : y = 0 := by
  have hsame : x ^^^ y = x ^^^ 0 := h.trans UInt8.xor_zero.symm
  exact (UInt8.xor_right_inj x).mp hsame

/-- The bits of the first `n` bytes. -/
theorem bit_range (m : Memory) {n i : Nat} (hi : i < 8 * n) :
    bit ((List.range n).map m) i = memoryBit m i := by
  have hlt : i / 8 < n := by omega
  simp [bit, memoryBit, List.getD_eq_getElem?_getD, hlt]

theorem overMemory_remainder (m : Memory) (n : Nat) :
    overMemory poly m n = remainder poly 0xFFFFFFFF ((List.range n).map m) ^^^ 0xFFFFFFFF := by
  simp [overMemory, remainder, List.foldl_map]

/-- A burst of at most 32 bits in the memory changes its CRC. -/
theorem overMemory_burst (hpoly : 2 ^ 31 ≤ poly.toNat) {m errors : Memory} {n : Nat}
    (h : Burst errors) (hin : ∀ i, errors i ≠ 0 → i < n) :
    overMemory poly (flipped m errors) n ≠ overMemory poly m n := by
  have hwithin : ∀ i, memoryBit errors i = true → i < 8 * n := by
    intro i hi
    have hbyte := hin _ (byte_of_bit hi)
    omega
  have hfirst := Nat.find_spec h.some_bit
  have hwindow : ∀ i, bit ((List.range n).map errors) i = true →
      Nat.find h.some_bit ≤ i ∧ i < Nat.find h.some_bit + 32 := by
    intro i hi
    have hlt : i < 8 * n := by
      by_contra hge
      rw [bit_past (by simpa using hge)] at hi
      cases hi
    rw [bit_range errors hlt] at hi
    obtain ⟨start, hshort⟩ := h.short
    have hstart := (hshort _ hfirst).1
    have hend := (hshort i hi).2
    exact ⟨Nat.find_min' _ hi, by omega⟩
  have hleft : remainder poly 0 ((List.range n).map errors) ≠ 0 :=
    remainder_burst hpoly ((bit_range errors (hwithin _ hfirst)).trans hfirst) hwindow
  have hpatched : (List.range n).map (flipped m errors) =
      List.zipWith (· ^^^ ·) ((List.range n).map m) ((List.range n).map errors) := by
    rw [List.zipWith_map, List.zipWith_self]
    rfl
  intro hsame
  apply hleft
  rw [overMemory_remainder, overMemory_remainder, hpatched] at hsame
  have hsum := remainder_xor poly 0xFFFFFFFF 0
    (by simp : ((List.range n).map m).length = ((List.range n).map errors).length)
  rw [UInt32.xor_zero] at hsum
  rw [hsum] at hsame
  have hcancel := (UInt32.xor_left_inj _).mp hsame
  rw [← UInt32.xor_zero (a := remainder poly 0xFFFFFFFF ((List.range n).map m))] at hcancel
  simpa [UInt32.xor_assoc] using hcancel

/-- Errors outside the window stand in the memory that is read with the window as zeros. -/
theorem zeroWindow_flipped (m : Memory) {errors : Memory} {w : Nat}
    (h : ∀ i, errors i ≠ 0 → ¬ (w ≤ i ∧ i < w + 4)) :
    zeroWindow (flipped m errors) w = flipped (zeroWindow m w) errors := by
  funext i
  unfold zeroWindow flipped
  by_cases hi : w ≤ i ∧ i < w + 4
  · have hnone : errors i = 0 := by
      by_contra hne
      exact h i hne hi
    simp [hi, hnone]
  · simp [hi]

end reflected_crc
