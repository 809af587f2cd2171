-- The application image: its manifest, the CRC over the whole image, and the
-- checks of the manifest and of the first two vectors.
import Stm32Vibe.Board
import Stm32Vibe.Lib.Crc

namespace stm32_vibe.app_image

open little_endian

/-! ## The manifest -/

def APP_MANIFEST_OFFSET : UInt32 := 0x200
def APP_MANIFEST_MAGIC : UInt32 := 0x45424956
def APP_MANIFEST_VERSION : UInt32 := 2
def APP_MANIFEST_SIZE : UInt32 := 64

/-- `app_manifest_t`. -/
structure AppManifest where
  magic : UInt32
  manifest_version : UInt32
  manifest_size : UInt32
  image_size : UInt32
  image_crc32 : UInt32
  software_version : UInt32
  hardware_id : UInt32
  image_flags : UInt32
  reserved : Vector UInt32 8
deriving DecidableEq, Repr

/-- The manifest at `APP_MANIFEST_OFFSET` of an image. -/
def manifestOf (image : Image) : AppManifest where
  magic := readWord image 0x200
  manifest_version := readWord image 0x204
  manifest_size := readWord image 0x208
  image_size := readWord image 0x20C
  image_crc32 := readWord image 0x210
  software_version := readWord image 0x214
  hardware_id := readWord image 0x218
  image_flags := readWord image 0x21C
  reserved := Vector.ofFn fun i => readWord image (0x220 + 4 * i)

def app_manifest_app_id (manifest : AppManifest) : UInt32 := manifest.reserved[0]
def app_manifest_board_id (manifest : AppManifest) : UInt32 := manifest.reserved[1]
def app_manifest_vector_words (manifest : AppManifest) : UInt32 := manifest.reserved[2]
def app_manifest_got_offset (manifest : AppManifest) : UInt32 := manifest.reserved[3]
def app_manifest_got_size (manifest : AppManifest) : UInt32 := manifest.reserved[4]

def app_manifest_is_relocatable (manifest : AppManifest) : Prop :=
  app_manifest_vector_words manifest ≥ 2 ∧ app_manifest_vector_words manifest ≤ 128

instance (manifest : AppManifest) : Decidable (app_manifest_is_relocatable manifest) :=
  inferInstanceAs (Decidable (_ ∧ _))

/-! ## The check of the image -/

/-- `APP_MANIFEST_OFFSET + offsetof(app_manifest_t, image_crc32)`. -/
def IMAGE_CRC32_OFFSET : Nat := 0x210

def image_crc32 (image : Image) (image_size : UInt32) : UInt32 :=
  reflected_crc.overMemory reflected_crc.CRC32
    (reflected_crc.zeroWindow image IMAGE_CRC32_OFFSET) image_size.toNat

inductive AppImageStatus where
  | Valid
  | BadMagic
  | BadSize
  | BadCrc
  | BadManifest
deriving DecidableEq, Repr

structure AppImageResult where
  status : AppImageStatus
  version : UInt32
  image_size : UInt32
  expected_crc32 : UInt32
  calculated_crc32 : UInt32
  hardware_id : UInt32
  image_flags : UInt32
  app_id : UInt32
  board_id : UInt32
deriving DecidableEq, Repr

def app_image_validate (image : Image) (capacity : UInt32) : AppImageResult :=
  if capacity < APP_MANIFEST_OFFSET + APP_MANIFEST_SIZE then
    { status := .BadSize, version := 0, image_size := 0, expected_crc32 := 0,
      calculated_crc32 := 0, hardware_id := 0, image_flags := 0, app_id := 0, board_id := 0 }
  else
    let manifest := manifestOf image
    let result : AppImageResult :=
      { status := .BadMagic
        version := manifest.software_version
        image_size := manifest.image_size
        expected_crc32 := manifest.image_crc32
        calculated_crc32 := 0
        hardware_id := manifest.hardware_id
        image_flags := manifest.image_flags
        app_id := app_manifest_app_id manifest
        board_id := app_manifest_board_id manifest }
    if manifest.magic ≠ APP_MANIFEST_MAGIC then result
    else if manifest.manifest_version ≠ APP_MANIFEST_VERSION ∨
        manifest.manifest_size ≠ APP_MANIFEST_SIZE then
      { result with status := .BadManifest }
    else if manifest.image_size < APP_MANIFEST_OFFSET + APP_MANIFEST_SIZE ∨
        manifest.image_size > capacity then
      { result with status := .BadSize }
    else
      let result := { result with calculated_crc32 := image_crc32 image manifest.image_size }
      if result.calculated_crc32 ≠ manifest.image_crc32 then { result with status := .BadCrc }
      else { result with status := .Valid }

/-- What `app_image_validate` accepts. -/
structure ImageValid (image : Image) (capacity : UInt32) : Prop where
  room : ¬ capacity < APP_MANIFEST_OFFSET + APP_MANIFEST_SIZE
  magic : (manifestOf image).magic = APP_MANIFEST_MAGIC
  manifest_version : (manifestOf image).manifest_version = APP_MANIFEST_VERSION
  manifest_size : (manifestOf image).manifest_size = APP_MANIFEST_SIZE
  size_ge : ¬ (manifestOf image).image_size < APP_MANIFEST_OFFSET + APP_MANIFEST_SIZE
  size_le : ¬ (manifestOf image).image_size > capacity
  crc : image_crc32 image (manifestOf image).image_size = (manifestOf image).image_crc32

theorem app_image_validate_iff (image : Image) (capacity : UInt32) :
    (app_image_validate image capacity).status = .Valid ↔ ImageValid image capacity := by
  unfold app_image_validate
  constructor
  · intro h
    simp only [apply_ite AppImageResult.status] at h
    split_ifs at h with h1 h2 h3 h4 h5
    simp only [not_or, ne_eq, Decidable.not_not] at h2 h3 h4 h5
    exact ⟨h1, h2, h3.1, h3.2, h4.1, h4.2, h5⟩
  · rintro ⟨h1, h2, h3, h4, h5, h6, h7⟩
    simp only [h1, h2, h3, h4, h5, h6, h7, if_false, ne_eq, not_true_eq_false, or_self]

/-- The result for an accepted image carries the words of its manifest. -/
theorem app_image_validate_valid {image : Image} {capacity : UInt32}
    (h : (app_image_validate image capacity).status = .Valid) :
    (app_image_validate image capacity).image_size = (manifestOf image).image_size ∧
      (app_image_validate image capacity).version = (manifestOf image).software_version ∧
      (app_image_validate image capacity).expected_crc32 = (manifestOf image).image_crc32 := by
  obtain ⟨h1, h2, h3, h4, h5, h6, h7⟩ := (app_image_validate_iff image capacity).mp h
  unfold app_image_validate
  simp only [h1, h2, h3, h4, h5, h6, h7, if_false, ne_eq, not_true_eq_false, or_self, and_self]

/-- An accepted image has room for its manifest. -/
theorem image_size_ge {image : Image} {capacity : UInt32}
    (h : (app_image_validate image capacity).status = .Valid) :
    0x240 ≤ (manifestOf image).image_size.toNat := by
  have hge := ((app_image_validate_iff image capacity).mp h).size_ge
  rw [UInt32.lt_iff_toNat_lt] at hge
  simpa [APP_MANIFEST_OFFSET, APP_MANIFEST_SIZE] using hge

/-! ## The check of the vectors -/

def app_vectors_are_valid_for_slot (board : Board)
    (stack_pointer reset_handler slot_start slot_end : UInt32) : Prop :=
  ¬ (stack_pointer < RAM_START_ADDR ∨ stack_pointer > RAM_END_ADDR board ∨
      stack_pointer &&& 0x7 ≠ 0) ∧
    reset_handler &&& 1 ≠ 0 ∧ reset_handler &&& ~~~1 ≥ slot_start ∧
    reset_handler &&& ~~~1 < slot_end

def app_relative_vectors_are_valid (board : Board)
    (stack_pointer reset_offset image_size : UInt32) : Prop :=
  ¬ (stack_pointer < RAM_START_ADDR ∨ stack_pointer > BOOT_RUNTIME_GOT_ADDR board ∨
      stack_pointer &&& 0x7 ≠ 0) ∧
    reset_offset &&& 1 ≠ 0 ∧ reset_offset &&& ~~~1 < image_size

instance (board : Board) (stack_pointer reset_handler slot_start slot_end : UInt32) :
    Decidable (app_vectors_are_valid_for_slot board stack_pointer reset_handler slot_start
      slot_end) := inferInstanceAs (Decidable (_ ∧ _))

instance (board : Board) (stack_pointer reset_offset image_size : UInt32) :
    Decidable (app_relative_vectors_are_valid board stack_pointer reset_offset image_size) :=
  inferInstanceAs (Decidable (_ ∧ _))

/-- The vector check that `main` and `handle_validate` both write out: the
relative form for a relocatable image and the form of the slot for the others. -/
def vectorsAccepted (board : Board) (image : Image)
    (image_size slot_start slot_end : UInt32) : Prop :=
  if app_manifest_is_relocatable (manifestOf image) then
    app_relative_vectors_are_valid board (readWord image 0) (readWord image 4) image_size
  else
    app_vectors_are_valid_for_slot board (readWord image 0) (readWord image 4) slot_start slot_end

instance (board : Board) (image : Image) (image_size slot_start slot_end : UInt32) :
    Decidable (vectorsAccepted board image image_size slot_start slot_end) :=
  inferInstanceAs (Decidable (ite _ _ _))

/-! ## The Thumb bit -/

theorem thumb_iff (address : UInt32) : address &&& 1 ≠ 0 ↔ address.toNat % 2 = 1 := by
  rw [ne_eq, ← UInt32.toNat_inj, UInt32.toNat_and]
  simp [Nat.and_one_is_mod]

/-- The address without the Thumb bit. -/
theorem clear_thumb (address : UInt32) :
    (address &&& ~~~(1 : UInt32)).toNat = address.toNat / 2 * 2 :=
  clear_low address 1 (by decide : ∀ i < 32, (1 : UInt32).toBitVec.getLsbD i = decide (i < 1))

/-! ## The image is what its first bytes are -/

theorem manifestOf_congr {image image' : Image} (h : ∀ i < 0x240, image i = image' i) :
    manifestOf image = manifestOf image' := by
  have hw : ∀ i, i + 4 ≤ 0x240 → readWord image i = readWord image' i := fun i hi =>
    readWord_congr fun k hk => h (i + k) (by omega)
  unfold manifestOf
  simp only [AppManifest.mk.injEq]
  refine ⟨hw _ ?_, hw _ ?_, hw _ ?_, hw _ ?_, hw _ ?_, hw _ ?_, hw _ ?_, hw _ ?_, ?_⟩ <;>
    try omega
  apply Vector.ext
  intro i hi
  rw [Vector.getElem_ofFn, Vector.getElem_ofFn]
  exact hw _ (by omega)

/-- An accepted image is decided by the bytes of the image alone: whatever
stands after them in the slot, the result is the same. -/
theorem app_image_validate_congr {image image' : Image} {capacity : UInt32}
    (hv : (app_image_validate image capacity).status = .Valid)
    (h : ∀ i < (manifestOf image).image_size.toNat, image i = image' i) :
    app_image_validate image' capacity = app_image_validate image capacity := by
  have hsize := image_size_ge hv
  have hm : manifestOf image' = manifestOf image :=
    (manifestOf_congr fun i hi => h i (by omega)).symm
  have hcrc : image_crc32 image' (manifestOf image).image_size =
      image_crc32 image (manifestOf image).image_size :=
    (reflected_crc.overMemory_zeroWindow_congr _ fun i hi _ => h i hi).symm
  unfold app_image_validate
  simp only [hm, hcrc]

/-- An erased slot holds no image. -/
theorem erased_rejected {image : Image} {capacity : UInt32} (h : ∀ i < 0x240, image i = 0xFF) :
    (app_image_validate image capacity).status ≠ .Valid := by
  intro hv
  have hmagic := ((app_image_validate_iff image capacity).mp hv).magic
  rw [@manifestOf_congr image (fun _ => 0xFF) h] at hmagic
  revert hmagic
  decide

end stm32_vibe.app_image
