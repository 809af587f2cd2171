-- The check that the update tool makes of a binary and its sidecar, and what a
-- finished image is worth: the bootloader and the tool both accept it, and
-- finishing it again changes nothing.
import Mathlib.Data.Rat.Cast.Order
import Stm32Vibe.FinalizeImage
import Stm32Vibe.UartUpdate

namespace stm32_vibe.image_artifacts

open little_endian code_points app_image finalize_image uart_update

/-! ## The check of the tool -/

def MANIFEST_CRC32_OFFSET : Nat := 16

def image_manifest_crc32 (image : List UInt8) : UInt32 :=
  let crc_offset := MANIFEST_OFFSET + MANIFEST_CRC32_OFFSET
  if image.length ≥ crc_offset + 4 then
    crc32 (image.take crc_offset ++ [0, 0, 0, 0] ++ image.drop (crc_offset + 4))
  else crc32 image

/-- What `json.load` gives. A float has an exact value, or it is NaN or infinite. -/
inductive Json where
  | null
  | bool (value : Bool)
  | int (value : Int)
  | float (value : Option Rat)
  | string (value : Text)
  | array (items : List Json)
  | object (members : List (Text × Json))

/-- `metadata.get(key)`. The last member with the key counts, and a missing one is `None`. -/
def get (members : List (Text × Json)) (key : String) : Json :=
  (members.reverse.lookup (ofString key)).getD .null

/-- `value == number`. -/
def Json.equalsInt (value : Json) (number : Int) : Bool :=
  match value with
  | .int value => value = number
  | .bool value => (if value then 1 else 0) = number
  | .float (some value) => value = number
  | _ => false

/-- `value == text`. -/
def Json.equalsText (value : Json) (text : Text) : Bool :=
  match value with
  | .string value => value = text
  | _ => false

def validate_artifacts (binary : List UInt8) (metadata : Json)
    (app_name board_name : Option Text) : Except ToolError Unit :=
  match metadata with
  | .object members =>
    if (get members "image_size").equalsInt binary.length = false then
      .error (.UpdateError "metadata image_size does not match binary length")
    else if (get members "image_crc32").equalsInt (image_manifest_crc32 binary).toNat = false then
      .error (.UpdateError "metadata image_crc32 does not match binary")
    else if ∃ name ∈ app_name, (get members "application_name").equalsText name = false then
      .error (.UpdateError "metadata application_name mismatch")
    else if ∃ name ∈ board_name, (get members "board_name").equalsText name = false then
      .error (.UpdateError "metadata board_name mismatch")
    else .ok ()
  | _ => .error .AttributeError

/-- The sidecar that the finalizer writes. -/
def sidecar (metadata : Metadata) : Json :=
  .object
    [(ofString "application_name", .string metadata.application_name),
      (ofString "application_id", .int metadata.application_id.toNat),
      (ofString "board_name", .string metadata.board_name),
      (ofString "board_id", .int metadata.board_id.toNat),
      (ofString "manifest_version", .int metadata.manifest_version),
      (ofString "manifest_size", .int metadata.manifest_size),
      (ofString "image_size", .int metadata.image_size),
      (ofString "image_crc32", .int metadata.image_crc32.toNat),
      (ofString "software_version", .int metadata.software_version),
      (ofString "vector_words", .int metadata.vector_words),
      (ofString "got_offset", .int metadata.got_offset),
      (ofString "got_size", .int metadata.got_size),
      (ofString "data_load_offset", .int metadata.data_load_offset)]

/-- What the check passes. -/
structure Matches (binary : List UInt8) (members : List (Text × Json))
    (app_name board_name : Option Text) : Prop where
  image_size : (get members "image_size").equalsInt binary.length = true
  image_crc32 : (get members "image_crc32").equalsInt (image_manifest_crc32 binary).toNat = true
  app_name : ∀ name ∈ app_name, (get members "application_name").equalsText name = true
  board_name : ∀ name ∈ board_name, (get members "board_name").equalsText name = true

theorem validate_artifacts_iff (binary : List UInt8) (members : List (Text × Json))
    (app_name board_name : Option Text) :
    validate_artifacts binary (.object members) app_name board_name = .ok () ↔
      Matches binary members app_name board_name := by
  unfold validate_artifacts
  dsimp only
  split_ifs with hsize hcrc happ hboard
  · exact iff_of_false nofun fun h => absurd h.image_size (by rw [hsize]; nofun)
  · exact iff_of_false nofun fun h => absurd h.image_crc32 (by rw [hcrc]; nofun)
  · refine iff_of_false nofun ?_
    obtain ⟨name, hname, hother⟩ := happ
    exact fun h => absurd (h.app_name name hname) (by rw [hother]; nofun)
  · refine iff_of_false nofun ?_
    obtain ⟨name, hname, hother⟩ := hboard
    exact fun h => absurd (h.board_name name hname) (by rw [hother]; nofun)
  · simp only [not_exists, not_and, Bool.not_eq_false] at hsize hcrc happ hboard
    exact iff_of_true rfl ⟨hsize, hcrc, happ, hboard⟩

/-! ## What the finalizer put into the sidecar -/

section
variable {image : List UInt8} {version : Int} {app_name board_name : Text}
  {relocation : Option Relocation} {binary manifest : List UInt8} {metadata : Metadata}

/-- The fields of the sidecar that are arguments. -/
structure Describes (metadata : Metadata) (version : Int) (app_name board_name : Text) :
    Prop where
  software_version : metadata.software_version = version
  names : metadata.application_name = app_name ∧ metadata.board_name = board_name
  ids : metadata_id app_name = .ok metadata.application_id ∧
    metadata_id board_name = .ok metadata.board_id

theorem finalize_bytes_describes
    (h : finalize_bytes image version app_name board_name relocation =
      .ok (binary, manifest, metadata)) : Describes metadata version app_name board_name := by
  obtain ⟨app_id, board_id, happ, hboard⟩ := finalize_bytes_ids h
  unfold finalize_bytes at h
  split_ifs at h with h1 h2
  rw [happ, hboard] at h
  change (struct_pack _ >>= _) = _ at h
  generalize struct_pack (manifestValues image.length 0 version board_id _) = first at h
  cases first with
  | error e => cases h
  | ok first =>
    change (struct_pack _ >>= _) = _ at h
    generalize struct_pack (manifestValues image.length (zlib_crc32 (patch image first)) version
      board_id _) = second at h
    cases second with
    | error e => cases h
    | ok second =>
      cases h
      exact ⟨rfl, ⟨rfl, rfl⟩, ⟨happ, hboard⟩⟩

/-- Without a relocation the words are those of a relocation of zeros. -/
theorem finalize_bytes_none :
    finalize_bytes image version app_name board_name none =
      finalize_bytes image version app_name board_name (some ⟨0, 0, 0, 0⟩) := rfl

/-- The finalizer reads an image only for its length and the bytes around the manifest. -/
theorem finalize_bytes_congr {image' : List UInt8} (hlength : image'.length = image.length)
    (hpatch : ∀ manifest, patch image' manifest = patch image manifest) :
    finalize_bytes image' version app_name board_name relocation =
      finalize_bytes image version app_name board_name relocation := by
  unfold finalize_bytes
  simp only [hlength, hpatch]

end

/-! ## The manifest in place -/

/-- Only the last manifest stands in a patched image. -/
theorem patch_patch {image manifest : List UInt8}
    (hroom : MANIFEST_OFFSET + MANIFEST_SIZE ≤ image.length)
    (hlength : manifest.length = MANIFEST_SIZE) (manifest' : List UInt8) :
    patch (patch image manifest) manifest' = patch image manifest' := by
  have htake : (image.take MANIFEST_OFFSET).length = MANIFEST_OFFSET := by
    rw [List.length_take]
    omega
  have hhead : (patch image manifest).take MANIFEST_OFFSET = image.take MANIFEST_OFFSET := by
    unfold patch
    rw [List.append_assoc, List.take_left' htake]
  have htail : (patch image manifest).drop (MANIFEST_OFFSET + MANIFEST_SIZE) =
      image.drop (MANIFEST_OFFSET + MANIFEST_SIZE) := by
    unfold patch
    rw [List.drop_left']
    rw [List.length_append, htake, hlength]
  unfold patch at hhead htail ⊢
  rw [hhead, htail]

/-- Four bytes of a list set to zero. -/
theorem getElem?_zeroed (bytes : List UInt8) {offset : Nat} (h : offset + 4 ≤ bytes.length)
    (i : Nat) :
    (bytes.take offset ++ [0, 0, 0, 0] ++ bytes.drop (offset + 4))[i]? =
      if offset ≤ i ∧ i < offset + 4 then some 0 else bytes[i]? := by
  have htake : (bytes.take offset).length = offset := by
    rw [List.length_take]
    omega
  by_cases hbefore : i < offset
  · rw [if_neg (by omega), List.append_assoc, List.getElem?_append_left (by omega),
      List.getElem?_take_of_lt hbefore]
  · by_cases hin : i < offset + 4
    · have hzero : [(0 : UInt8), 0, 0, 0] = List.replicate 4 0 := rfl
      rw [if_pos ⟨by omega, hin⟩, List.append_assoc, List.getElem?_append_right (by omega), htake,
        hzero, List.getElem?_append_left (by rw [List.length_replicate]; omega),
        List.getElem?_replicate, if_pos (by omega)]
    · have hhead : (bytes.take offset ++ [(0 : UInt8), 0, 0, 0]).length = offset + 4 := by
        rw [List.length_append, htake]
        rfl
      rw [if_neg (by omega), List.getElem?_append_right (by omega), hhead, List.getElem?_drop,
        Nat.add_sub_cancel' (by omega)]

section
variable {image binary : List UInt8} {metadata : Metadata} (h : Finalized image binary metadata)
include h

/-- Outside the manifest a finished image is the image. -/
theorem finalized_outside {i : Nat} (hi : i < 0x200 ∨ 0x240 ≤ i) : binary[i]? = image[i]? := by
  rw [h.binary_eq, getElem?_patch h.room, if_neg (by omega)]

/-- The tool zeroes the CRC word, and has the image of the finalizer's first pass. -/
theorem finalized_manifest_crc : image_manifest_crc32 binary = metadata.image_crc32 := by
  have hlen := length_finalized h
  have hroom := h.room
  unfold MANIFEST_OFFSET MANIFEST_SIZE at hroom
  have hlong : binary.length ≥ MANIFEST_OFFSET + MANIFEST_CRC32_OFFSET + 4 := by
    unfold MANIFEST_OFFSET MANIFEST_CRC32_OFFSET
    omega
  have hzeroed : binary.take 0x210 ++ [0, 0, 0, 0] ++ binary.drop 0x214 =
      patch image (unpackAll (manifestWords metadata 0)) := by
    apply List.ext_getElem?
    intro i
    rw [getElem?_zeroed binary (by omega), h.binary_eq, getElem?_patch h.room,
      getElem?_patch h.room]
    by_cases hin : 0x200 ≤ i ∧ i < 0x240
    · rw [if_pos hin, if_pos hin]
      split
      · -- the CRC word itself
        rw [show (i - 0x200) / 4 = 4 by omega]
        exact congrArg some (lane_zero _).symm
      · -- the other words do not depend on the CRC
        have hset : manifestWords metadata metadata.image_crc32 =
            (manifestWords metadata 0).set 4 metadata.image_crc32 := rfl
        rw [hset, List.getElem?_set_ne (by omega)]
    · rw [if_neg hin, if_neg hin, if_neg (by omega)]
  unfold image_manifest_crc32
  rw [if_pos hlong]
  show crc32 (binary.take 0x210 ++ [0, 0, 0, 0] ++ binary.drop 0x214) = _
  rw [hzeroed, h.crc]
  rfl

/-- The tool accepts a finished image with its sidecar, under its own names or
under none. -/
theorem finalized_artifacts {app_name board_name : Option Text}
    (happ : app_name = none ∨ app_name = some metadata.application_name)
    (hboard : board_name = none ∨ board_name = some metadata.board_name) :
    validate_artifacts binary (sidecar metadata) app_name board_name = .ok () := by
  refine (validate_artifacts_iff _ _ _ _).mpr ⟨?_, ?_, ?_, ?_⟩
  · rw [length_finalized h, ← h.size]
    exact decide_eq_true rfl
  · rw [finalized_manifest_crc h]
    exact decide_eq_true rfl
  · intro name hname
    rcases happ with rfl | rfl
    · cases hname
    · cases hname
      exact decide_eq_true rfl
  · intro name hname
    rcases hboard with rfl | rfl
    · cases hname
    · cases hname
      exact decide_eq_true rfl

/-- The ids of the sidecar are those in the manifest. -/
theorem finalized_ids {m : Memory} (hm : Holds m binary) :
    app_manifest_app_id (manifestOf m) = metadata.application_id ∧
      app_manifest_board_id (manifestOf m) = metadata.board_id := by
  have hword := finalized_word h hm
  unfold app_manifest_app_id app_manifest_board_id manifestOf
  simp only [Vector.getElem_ofFn]
  exact ⟨hword 8 (by omega), hword 9 (by omega)⟩

end

/-- The result of the image check on an accepted image, whole. -/
theorem app_image_validate_result {image : Image} {capacity : UInt32}
    (h : (app_image_validate image capacity).status = .Valid) :
    app_image_validate image capacity =
      { status := .Valid
        version := (manifestOf image).software_version
        image_size := (manifestOf image).image_size
        expected_crc32 := (manifestOf image).image_crc32
        calculated_crc32 := (manifestOf image).image_crc32
        hardware_id := (manifestOf image).hardware_id
        image_flags := (manifestOf image).image_flags
        app_id := app_manifest_app_id (manifestOf image)
        board_id := app_manifest_board_id (manifestOf image) } := by
  obtain ⟨h1, h2, h3, h4, h5, h6, h7⟩ := (app_image_validate_iff image capacity).mp h
  unfold app_image_validate
  simp only [h1, h2, h3, h4, h5, h6, h7, if_false, ne_eq, not_true_eq_false, or_self]

/-! ## What is stamped is accepted -/

/-- The numbers of an optional relocation fit their words. -/
def RelocationFits (relocation : Option Relocation) : Prop :=
  ∀ placed ∈ relocation, placed.Fits

theorem finalize_bytes_fits {image : List UInt8} {version : Int} {app_name board_name : Text}
    {relocation : Option Relocation} (hroom : 0x240 ≤ image.length)
    (hlen : image.length < 2 ^ 32) (hv : 0 ≤ version ∧ version ≤ 0xFFFFFFFF)
    (happ : Encodable app_name) (hboard : Encodable board_name)
    (hr : RelocationFits relocation) :
    ∃ binary manifest metadata, finalize_bytes image version app_name board_name relocation =
      .ok (binary, manifest, metadata) := by
  cases relocation with
  | none =>
    have hzero : (⟨0, 0, 0, 0⟩ : Relocation).Fits := by
      intro value hmem
      simp only [List.mem_cons, List.not_mem_nil, or_false, or_self] at hmem
      omega
    obtain ⟨binary, manifest, metadata, hok, -⟩ :=
      @finalize_bytes_total image version app_name board_name _ hroom hlen hv happ hboard
        hzero
    exact ⟨binary, manifest, metadata, finalize_bytes_none.trans hok⟩
  | some placed =>
    obtain ⟨binary, manifest, metadata, hok, -⟩ :=
      @finalize_bytes_total image version app_name board_name _ hroom hlen hv happ hboard
        (hr placed rfl)
    exact ⟨binary, manifest, metadata, hok⟩

/-- What the bootloader finds in an image that the finalizer made from the
arguments: it is valid, and says what the sidecar says. -/
structure Accepted (result : AppImageResult) (size : Nat) (version : Int) (metadata : Metadata) :
    Prop where
  status : result.status = .Valid
  version : result.version = version.toNat.toUInt32
  image_size : result.image_size.toNat = size
  app_id : result.app_id = metadata.application_id
  board_id : result.board_id = metadata.board_id ∧ result.hardware_id = metadata.board_id
  crc32 : result.expected_crc32 = metadata.image_crc32 ∧
    result.calculated_crc32 = metadata.image_crc32

theorem finalized_accepted {image binary : List UInt8} {version : Int}
    {app_name board_name : Text} {metadata : Metadata} (h : Finalized image binary metadata)
    (hdescribes : Describes metadata version app_name board_name) {m : Memory}
    (hm : Holds m binary) {capacity : UInt32} (hfit : binary.length ≤ capacity.toNat) :
    Accepted (app_image_validate m capacity) image.length version metadata := by
  have hvalid := finalized_valid h hm hfit
  obtain ⟨-, -, -, himage, hcrc, hversion⟩ := finalized_manifest h hm
  obtain ⟨happ, hboard⟩ := finalized_ids h hm
  have hhardware : (manifestOf m).hardware_id = metadata.board_id :=
    finalized_word h hm 6 (by omega)
  rw [app_image_validate_result hvalid]
  refine ⟨rfl, ?_, ?_, happ, ⟨hboard, hhardware⟩, hcrc, hcrc⟩
  · rw [hversion, hdescribes.software_version]
  · rw [himage, finalized_size h, length_finalized h]

/-- Finishing a finished image again with the same arguments gives it back. -/
theorem finalize_bytes_again {image : List UInt8} {version : Int} {app_name board_name : Text}
    {relocation : Option Relocation} {binary manifest : List UInt8} {metadata : Metadata}
    (h : finalize_bytes image version app_name board_name relocation =
      .ok (binary, manifest, metadata)) :
    finalize_bytes binary version app_name board_name relocation =
      .ok (binary, manifest, metadata) := by
  have hfin := finalize_bytes_ok h
  have hpatch : ∀ again, patch binary again = patch image again := by
    intro again
    rw [hfin.binary_eq]
    exact patch_patch hfin.room (length_manifest _) again
  rw [finalize_bytes_congr (length_finalized hfin) hpatch]
  exact h

/-- What the finalizer stamps, the bootloader and the tool accept. It stamps nothing
under a name that UTF-8 cannot encode. -/
theorem stamped_accepted (image : List UInt8) (capacity : UInt32) (version : Int)
    (app_name board_name : Text) (relocation : Option Relocation)
    (hroom : 0x240 ≤ image.length) (hfit : image.length ≤ capacity.toNat)
    (hversion : 0 ≤ version ∧ version ≤ 0xFFFFFFFF)
    (hrelocation : RelocationFits relocation) :
    (Encodable app_name ∧ Encodable board_name →
      ∃ binary manifest metadata,
        finalize_bytes image version app_name board_name relocation =
          .ok (binary, manifest, metadata) ∧
        binary.length = image.length ∧
        (∀ i, i < 0x200 ∨ 0x240 ≤ i → binary[i]? = image[i]?) ∧
        (∀ m, Holds m binary →
          Accepted (app_image_validate m capacity) image.length version metadata) ∧
        (∀ app board, app = none ∨ app = some app_name → board = none ∨ board = some board_name →
          validate_artifacts binary (sidecar metadata) app board = .ok ()) ∧
        finalize_bytes binary version app_name board_name relocation =
          .ok (binary, manifest, metadata)) ∧
    (¬ (Encodable app_name ∧ Encodable board_name) →
      finalize_bytes image version app_name board_name relocation =
        .error .UnicodeEncodeError) := by
  refine ⟨fun hnames => ?_, finalize_bytes_raises hroom hversion⟩
  have hlen : image.length < 2 ^ 32 := by
    have hcapacity := capacity.toNat_lt
    omega
  obtain ⟨binary, manifest, metadata, hok⟩ :=
    @finalize_bytes_fits image version app_name board_name relocation hroom hlen hversion
      hnames.1 hnames.2 hrelocation
  have hfin := finalize_bytes_ok hok
  have hdescribes := finalize_bytes_describes hok
  have hbinary := length_finalized hfin
  refine ⟨binary, manifest, metadata, hok, hbinary, fun i hi => finalized_outside hfin hi, ?_, ?_,
    finalize_bytes_again hok⟩
  · intro m hm
    apply finalized_accepted hfin hdescribes hm
    rw [hbinary]
    exact hfit
  · intro app board happ hboard
    apply finalized_artifacts hfin
    · rw [hdescribes.names.1]
      exact happ
    · rw [hdescribes.names.2]
      exact hboard

/-- An image of zeros in a slot of the F446, with two vectors. -/
theorem stamped_accepted_zeros : ∃ binary manifest metadata,
    finalize_bytes (List.replicate 0x240 0) 7 (ofString "vibe") (ofString "board")
        (some ⟨2, 0x200, 0, 0x240⟩) = .ok (binary, manifest, metadata) ∧
      ∀ m, Holds m binary →
        (app_image_validate m (APP_SLOT_SIZE .F446)).status = .Valid := by
  have hlen : (List.replicate 0x240 (0 : UInt8)).length = 0x240 := List.length_replicate
  have hstamped := stamped_accepted (List.replicate 0x240 0) (APP_SLOT_SIZE .F446) 7
    (ofString "vibe") (ofString "board") (some ⟨2, 0x200, 0, 0x240⟩) (by rw [hlen])
    (by rw [hlen]; decide) (by decide) (by
      intro placed hmem
      cases hmem
      unfold Relocation.Fits
      decide)
  obtain ⟨binary, manifest, metadata, hok, -, -, haccepted, -⟩ :=
    hstamped.1 ⟨encodable_ofString _, encodable_ofString _⟩
  exact ⟨binary, manifest, metadata, hok, fun m hm => (haccepted m hm).status⟩

/-- A name with a surrogate has no UTF-8: the finalizer raises and stamps nothing. -/
theorem surrogate_not_stamped :
    finalize_bytes (List.replicate 0x240 0) 7 [0xDC80] (ofString "board")
      (some ⟨2, 0x200, 0, 0x240⟩) = .error .UnicodeEncodeError := by
  have hlen : (List.replicate 0x240 (0 : UInt8)).length = 0x240 := List.length_replicate
  unfold finalize_bytes
  rw [hlen, if_neg (by decide), if_neg (by decide)]
  rfl

end stm32_vibe.image_artifacts
