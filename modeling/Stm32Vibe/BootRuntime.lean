-- What the bootloader leaves in the RAM for the application: the handoff
-- record with its CRC, and the relocated vectors and GOT of the image.
import Stm32Vibe.AppImage

namespace stm32_vibe.boot_runtime

open little_endian app_image

/-- The words of the RAM, by the byte address of each word. -/
abbrev Ram := Nat → UInt32

/-! ## The handoff record -/

def BOOT_HANDOFF_MAGIC : UInt32 := 0x46444E48
def BOOT_HANDOFF_VERSION : UInt32 := 1
def BOOT_HANDOFF_CONFIRMED : UInt32 := 0
def BOOT_HANDOFF_PENDING : UInt32 := 1

/-- `boot_handoff_t`. -/
structure BootHandoff where
  magic : UInt32
  version : UInt32
  size : UInt32
  image_base : UInt32
  image_size : UInt32
  slot : UInt32
  state : UInt32
  boot_attempt : UInt32
  crc32 : UInt32
deriving DecidableEq, Repr

/-- `sizeof(boot_handoff_t)`. -/
def HANDOFF_SIZE : UInt32 := 36

def BootHandoff.words (handoff : BootHandoff) : List UInt32 :=
  [handoff.magic, handoff.version, handoff.size, handoff.image_base, handoff.image_size,
    handoff.slot, handoff.state, handoff.boot_attempt, handoff.crc32]

def BootHandoff.bytes (handoff : BootHandoff) : Memory := fun index =>
  lane (handoff.words.getD (index / 4) 0) (index % 4)

def boot_handoff_crc32 (handoff : BootHandoff) : UInt32 :=
  reflected_crc.overMemory reflected_crc.CRC32
    (reflected_crc.zeroWindow handoff.bytes 32) HANDOFF_SIZE.toNat

def boot_handoff_update_crc (handoff : BootHandoff) : BootHandoff :=
  let handoff := { handoff with crc32 := 0 }
  { handoff with crc32 := boot_handoff_crc32 handoff }

def boot_handoff_is_valid (handoff : BootHandoff) : Prop :=
  ¬ (handoff.magic ≠ BOOT_HANDOFF_MAGIC ∨ handoff.version ≠ BOOT_HANDOFF_VERSION ∨
      handoff.size ≠ HANDOFF_SIZE ∨ (handoff.slot ≠ 0 ∧ handoff.slot ≠ 1) ∨
      (handoff.state ≠ BOOT_HANDOFF_CONFIRMED ∧ handoff.state ≠ BOOT_HANDOFF_PENDING) ∨
      handoff.image_size = 0) ∧
    handoff.crc32 = boot_handoff_crc32 handoff

instance (handoff : BootHandoff) : Decidable (boot_handoff_is_valid handoff) :=
  inferInstanceAs (Decidable (_ ∧ _))

/-- `*boot_handoff_shared() = handoff`. -/
def writeHandoff (board : Board) (ram : Ram) (handoff : BootHandoff) : Ram := fun address =>
  if (BOOT_HANDOFF_ADDR board).toNat ≤ address ∧
      address < (BOOT_HANDOFF_ADDR board).toNat + HANDOFF_SIZE.toNat then
    handoff.words.getD ((address - (BOOT_HANDOFF_ADDR board).toNat) / 4) 0
  else ram address

/-- The record that the application finds at `BOOT_HANDOFF_ADDR`. -/
def boot_handoff_shared (board : Board) (ram : Ram) : BootHandoff :=
  let base := (BOOT_HANDOFF_ADDR board).toNat
  { magic := ram base
    version := ram (base + 4)
    size := ram (base + 8)
    image_base := ram (base + 12)
    image_size := ram (base + 16)
    slot := ram (base + 20)
    state := ram (base + 24)
    boot_attempt := ram (base + 28)
    crc32 := ram (base + 32) }

theorem boot_handoff_crc32_set (handoff : BootHandoff) (x : UInt32) :
    boot_handoff_crc32 { handoff with crc32 := x } = boot_handoff_crc32 handoff := by
  apply reflected_crc.overMemory_zeroWindow_congr
  intro i hi hout
  have hne : 8 ≠ i / 4 := by omega
  have hset : ({ handoff with crc32 := x } : BootHandoff).words = handoff.words.set 8 x := rfl
  simp only [BootHandoff.bytes, hset, List.getD, List.getElem?_set_ne hne]

theorem handoff_update_crc_crc (handoff : BootHandoff) :
    (boot_handoff_update_crc handoff).crc32 =
      boot_handoff_crc32 (boot_handoff_update_crc handoff) := by
  unfold boot_handoff_update_crc
  rw [boot_handoff_crc32_set]

/-- Only the CRC word changes. -/
theorem handoff_update_crc_eq (handoff : BootHandoff) :
    ∃ crc, boot_handoff_update_crc handoff = { handoff with crc32 := crc } := ⟨_, rfl⟩

/-- The record that was written is the record that is found, as long as its
nine words stay. -/
theorem shared_of_agree (board : Board) (ram ram' : Ram) (handoff : BootHandoff)
    (h : ∀ address, (BOOT_HANDOFF_ADDR board).toNat ≤ address →
      address < (BOOT_HANDOFF_ADDR board).toNat + 36 →
      ram' address = writeHandoff board ram handoff address) :
    boot_handoff_shared board ram' = handoff := by
  have hw : ∀ k, 4 * k < 36 → ram' ((BOOT_HANDOFF_ADDR board).toNat + 4 * k) =
      handoff.words.getD k 0 := by
    intro k hk
    rw [h _ (by omega) (by omega)]
    unfold writeHandoff
    rw [if_pos ⟨by omega, by show _ < _ + 36; omega⟩]
    congr 1
    omega
  obtain ⟨m, v, z, b, s, l, t, n, c⟩ := handoff
  simp only [boot_handoff_shared, BootHandoff.mk.injEq]
  exact ⟨hw 0 (by omega), hw 1 (by omega), hw 2 (by omega), hw 3 (by omega), hw 4 (by omega),
    hw 5 (by omega), hw 6 (by omega), hw 7 (by omega), hw 8 (by omega)⟩

/-! ## The relocation -/

/-- The word that leaves a vector unused. -/
def UNUSED_VECTOR : UInt32 := 0xF108F85F

/-- The loop over the vectors `index`, `index + 1`, .. of the image: `count` of
them are left, and a bad one ends the loop with 0. -/
def relocateVectors (image : Image) (image_base image_size : UInt32) (vectors : Nat) :
    Nat → Nat → Ram → Bool × Ram
  | 0, _, ram => (true, ram)
  | count + 1, index, ram =>
    let handler := readWord image (4 * index)
    if handler = 0 ∨ handler = UNUSED_VECTOR then
      relocateVectors image image_base image_size vectors count (index + 1)
        (Function.update ram (vectors + 4 * index) 0)
    else if handler &&& 1 = 0 ∨ handler &&& ~~~1 ≥ image_size then (false, ram)
    else
      relocateVectors image image_base image_size vectors count (index + 1)
        (Function.update ram (vectors + 4 * index) (image_base + handler))

/-- The loop over the GOT. -/
def relocateGot (image : Image) (image_base image_size got_offset : UInt32) (got : Nat) :
    Nat → Nat → Ram → Ram
  | 0, _, ram => ram
  | count + 1, index, ram =>
    let value := readWord image (got_offset.toNat + 4 * index)
    relocateGot image image_base image_size got_offset got count (index + 1)
      (Function.update ram (got + 4 * index) (if value < image_size then image_base + value
        else value))

/-- The checks before the loops. -/
def RelocationBounds (image_size vector_words got_offset got_size vector_capacity_words
    got_capacity_words : UInt32) : Prop :=
  ¬ (image_size < 2 * 4 ∨ vector_words < 2 ∨ vector_words > vector_capacity_words ∨
      vector_words > BOOT_RUNTIME_VECTOR_WORDS ∨ vector_words > image_size / 4 ∨
      got_offset &&& 3 ≠ 0 ∨ got_size &&& 3 ≠ 0 ∨ got_offset > image_size ∨
      got_size > image_size - got_offset) ∧
    ¬ (got_size / 4 > got_capacity_words ∨ got_size / 4 > BOOT_RUNTIME_GOT_WORDS)

instance (image_size vector_words got_offset got_size vector_capacity_words
    got_capacity_words : UInt32) : Decidable (RelocationBounds image_size vector_words got_offset
      got_size vector_capacity_words got_capacity_words) := inferInstanceAs (Decidable (_ ∧ _))

/-- The RAM after the call and the returned 1 or 0. The buffers `vectors` and
`got` are the addresses of their first words. -/
def boot_runtime_relocate (image : Image)
    (image_base image_size vector_words got_offset got_size : UInt32)
    (vectors : Nat) (vector_capacity_words : UInt32) (got : Nat) (got_capacity_words : UInt32)
    (ram : Ram) : Bool × Ram :=
  if ¬ RelocationBounds image_size vector_words got_offset got_size vector_capacity_words
      got_capacity_words then (false, ram)
  else
    let ram := Function.update ram vectors (readWord image 0)
    match relocateVectors image image_base image_size vectors (vector_words.toNat - 1) 1 ram with
    | (false, ram) => (false, ram)
    | (true, ram) =>
      (true, relocateGot image image_base image_size got_offset got (got_size / 4).toNat 0 ram)

/-! ## What the relocation checks and writes -/

/-- A vector that the loop accepts: unused, or an odd offset inside the image. -/
def VectorAccepted (image_size handler : UInt32) : Prop :=
  handler = 0 ∨ handler = UNUSED_VECTOR ∨
    (handler &&& 1 ≠ 0 ∧ handler &&& ~~~1 < image_size)

instance (image_size handler : UInt32) : Decidable (VectorAccepted image_size handler) :=
  inferInstanceAs (Decidable (_ ∨ _))

/-- The vector that the loop stores for an accepted one. -/
def relocated (image_base handler : UInt32) : UInt32 :=
  if handler = 0 ∨ handler = UNUSED_VECTOR then 0 else image_base + handler

section
variable (image : Image) (image_base image_size : UInt32) (vectors : Nat)

theorem relocateVectors_step (count index : Nat) (ram : Ram)
    (h : VectorAccepted image_size (readWord image (4 * index))) :
    relocateVectors image image_base image_size vectors (count + 1) index ram =
      relocateVectors image image_base image_size vectors count (index + 1)
        (Function.update ram (vectors + 4 * index)
          (relocated image_base (readWord image (4 * index)))) := by
  rw [relocateVectors]
  unfold relocated
  by_cases h0 : readWord image (4 * index) = 0 ∨ readWord image (4 * index) = UNUSED_VECTOR
  · simp only [h0, if_true]
  · obtain ⟨hodd, hlt⟩ : readWord image (4 * index) &&& 1 ≠ 0 ∧
        readWord image (4 * index) &&& ~~~1 < image_size := by
      rcases h with h | h | h
      · exact absurd (Or.inl h) h0
      · exact absurd (Or.inr h) h0
      · exact h
    have hin : ¬ (readWord image (4 * index) &&& 1 = 0 ∨
        readWord image (4 * index) &&& ~~~1 ≥ image_size) := by
      rintro (h | h)
      · exact hodd h
      · exact UInt32.not_le.mpr hlt h
    simp only [h0, hin, if_false]

theorem relocateVectors_bad (count index : Nat) (ram : Ram)
    (h : ¬ VectorAccepted image_size (readWord image (4 * index))) :
    relocateVectors image image_base image_size vectors (count + 1) index ram = (false, ram) := by
  rw [relocateVectors]
  unfold VectorAccepted at h
  simp only [not_or, not_and, UInt32.not_lt] at h
  have hbad : readWord image (4 * index) &&& 1 = 0 ∨
      readWord image (4 * index) &&& ~~~1 ≥ image_size := by
    by_cases hodd : readWord image (4 * index) &&& 1 = 0
    · exact Or.inl hodd
    · exact Or.inr (h.2.2 hodd)
  simp only [h.1, h.2.1, or_self, if_false, hbad, if_true]

/-- The loop ends with 1 exactly when it accepts every vector. -/
theorem relocateVectors_ok (count index : Nat) (ram : Ram) :
    (relocateVectors image image_base image_size vectors count index ram).1 = true ↔
      ∀ k < count, VectorAccepted image_size (readWord image (4 * (index + k))) := by
  induction count generalizing index ram with
  | zero => simp [relocateVectors]
  | succ count ih =>
    by_cases h : VectorAccepted image_size (readWord image (4 * index))
    · rw [relocateVectors_step _ _ _ _ _ _ _ h, ih]
      constructor
      · intro hk k hlt
        rcases k with _ | k
        · exact h
        · have hrest := hk k (by omega)
          rwa [show index + 1 + k = index + (k + 1) by omega] at hrest
      · intro hk k hlt
        have hrest := hk (k + 1) (by omega)
        rwa [show index + (k + 1) = index + 1 + k by omega] at hrest
    · rw [relocateVectors_bad _ _ _ _ _ _ _ h]
      simp only [Bool.false_eq_true, false_iff, not_forall]
      exact ⟨0, by omega, h⟩

/-- The loop writes only the vectors from `index` on. -/
theorem relocateVectors_frame (count index : Nat) (ram : Ram) (address : Nat)
    (h : address < vectors + 4 * index ∨ vectors + 4 * (index + count) ≤ address) :
    (relocateVectors image image_base image_size vectors count index ram).2 address =
      ram address := by
  induction count generalizing index ram with
  | zero => rfl
  | succ count ih =>
    by_cases ha : VectorAccepted image_size (readWord image (4 * index))
    · rw [relocateVectors_step _ _ _ _ _ _ _ ha, ih _ _ (by omega),
        Function.update_of_ne (by omega)]
    · rw [relocateVectors_bad _ _ _ _ _ _ _ ha]

/-- After the loop, each of its vectors is relocated. -/
theorem relocateVectors_at (count index : Nat) (ram : Ram)
    (hok : (relocateVectors image image_base image_size vectors count index ram).1 = true)
    (k : Nat) (hk : k < count) :
    (relocateVectors image image_base image_size vectors count index ram).2
        (vectors + 4 * (index + k)) =
      relocated image_base (readWord image (4 * (index + k))) := by
  induction count generalizing index ram k with
  | zero => omega
  | succ count ih =>
    have ha := (relocateVectors_ok image image_base image_size vectors _ _ _).mp hok 0 (by omega)
    rw [Nat.add_zero] at ha
    rw [relocateVectors_step _ _ _ _ _ _ _ ha] at hok ⊢
    rcases k with _ | k
    · rw [relocateVectors_frame _ _ _ _ _ _ _ _ (by omega), Nat.add_zero, Function.update_self]
    · rw [show index + (k + 1) = index + 1 + k by omega]
      exact ih _ _ hok k (by omega)

end

/-- The loop over the GOT writes only its own words. -/
theorem relocateGot_frame (image : Image) (image_base image_size got_offset : UInt32) (got : Nat)
    (count index : Nat) (ram : Ram) (address : Nat)
    (h : address < got + 4 * index ∨ got + 4 * (index + count) ≤ address) :
    relocateGot image image_base image_size got_offset got count index ram address =
      ram address := by
  induction count generalizing index ram with
  | zero => rfl
  | succ count ih =>
    rw [relocateGot, ih _ _ (by omega), Function.update_of_ne (by omega)]

section
variable (image : Image) (image_base image_size vector_words got_offset got_size : UInt32)
  (vectors : Nat) (vector_capacity_words : UInt32) (got : Nat) (got_capacity_words : UInt32)
  (ram : Ram)

/-- The relocation returns 1 exactly when its bounds hold and every vector
after the stack pointer is accepted. -/
theorem relocate_ok :
    (boot_runtime_relocate image image_base image_size vector_words got_offset got_size vectors
        vector_capacity_words got got_capacity_words ram).1 = true ↔
      RelocationBounds image_size vector_words got_offset got_size vector_capacity_words
          got_capacity_words ∧
        ∀ index, 1 ≤ index → index < vector_words.toNat →
          VectorAccepted image_size (readWord image (4 * index)) := by
  have hloop := relocateVectors_ok image image_base image_size vectors (vector_words.toNat - 1) 1
    (Function.update ram vectors (readWord image 0))
  have hshift : (∀ k < vector_words.toNat - 1,
        VectorAccepted image_size (readWord image (4 * (1 + k)))) ↔
      ∀ index, 1 ≤ index → index < vector_words.toNat →
        VectorAccepted image_size (readWord image (4 * index)) := by
    constructor
    · intro h index h1 hlt
      have hk := h (index - 1) (by omega)
      rwa [show 1 + (index - 1) = index by omega] at hk
    · intro h k hk
      exact h (1 + k) (by omega) (by omega)
  rw [hshift] at hloop
  unfold boot_runtime_relocate
  by_cases hb : RelocationBounds image_size vector_words got_offset got_size
      vector_capacity_words got_capacity_words
  · simp only [hb, not_true_eq_false, if_false, true_and]
    rw [← hloop]
    split
    · rename_i hr; simp [hr]
    · rename_i hr; simp [hr]
  · simp [hb]

/-- The relocation writes only the vectors and the GOT. -/
theorem relocate_frame (address : Nat)
    (hv : address < vectors ∨ vectors + 4 * vector_words.toNat ≤ address)
    (hg : address < got ∨ got + 4 * (got_size / 4).toNat ≤ address) :
    (boot_runtime_relocate image image_base image_size vector_words got_offset got_size vectors
        vector_capacity_words got got_capacity_words ram).2 address = ram address := by
  unfold boot_runtime_relocate
  split
  · rfl
  · rename_i hbounds
    have hw : 2 ≤ vector_words.toNat := by
      unfold RelocationBounds at hbounds
      simp only [not_not, not_or, UInt32.not_lt] at hbounds
      exact UInt32.le_iff_toNat_le.mp hbounds.1.2.1
    have hframe := relocateVectors_frame image image_base image_size vectors
      (vector_words.toNat - 1) 1 (Function.update ram vectors (readWord image 0)) address
      (by omega)
    rw [Function.update_of_ne (by omega)] at hframe
    dsimp only
    split
    · rename_i hr; rw [hr] at hframe; exact hframe
    · rename_i hr
      rw [hr] at hframe
      dsimp only at hframe ⊢
      rw [relocateGot_frame _ _ _ _ _ _ _ _ _ (by omega)]
      exact hframe

/-- After a successful relocation, the first two vectors stand in the buffer,
when the GOT buffer lies clear of them. -/
theorem relocate_vectors
    (hok : (boot_runtime_relocate image image_base image_size vector_words got_offset got_size
      vectors vector_capacity_words got got_capacity_words ram).1 = true)
    (hclear : got + 4 * (got_size / 4).toNat ≤ vectors) (h2 : 2 ≤ vector_words.toNat) :
    let ram' := (boot_runtime_relocate image image_base image_size vector_words got_offset got_size
      vectors vector_capacity_words got got_capacity_words ram).2
    ram' vectors = readWord image 0 ∧
      ram' (vectors + 4) = relocated image_base (readWord image 4) := by
  have hb := ((relocate_ok image image_base image_size vector_words got_offset got_size vectors
    vector_capacity_words got got_capacity_words ram).mp hok).1
  unfold boot_runtime_relocate at hok ⊢
  simp only [hb, not_true_eq_false, if_false] at hok ⊢
  have h0 := relocateVectors_frame image image_base image_size vectors
    (vector_words.toNat - 1) 1 (Function.update ram vectors (readWord image 0)) vectors (by omega)
  rw [Function.update_self] at h0
  have h1 := relocateVectors_at image image_base image_size vectors (vector_words.toNat - 1) 1
    (Function.update ram vectors (readWord image 0))
  generalize relocateVectors image image_base image_size vectors (vector_words.toNat - 1) 1
    (Function.update ram vectors (readWord image 0)) = loop at hok h0 h1 ⊢
  obtain ⟨ok, after⟩ := loop
  cases ok with
  | false => cases hok
  | true =>
    dsimp only at h0 h1 ⊢
    rw [relocateGot_frame _ _ _ _ _ _ _ _ _ (by omega),
      relocateGot_frame _ _ _ _ _ _ _ _ _ (by omega)]
    exact ⟨h0, h1 rfl 0 (by omega)⟩

end

end stm32_vibe.boot_runtime
