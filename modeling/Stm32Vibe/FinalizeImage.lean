-- The tool that puts the manifest into a built image. What it returns passes
-- the image check of the bootloader, in any slot that is large enough.
import Stm32Vibe.AppImage
import Stm32Vibe.Lib.Utf8

namespace stm32_vibe.finalize_image

open little_endian code_points app_image

/-! ## The tool -/

def MANIFEST_SIZE : Nat := 64
def MANIFEST_MAGIC : Int := 0x45424956
def MANIFEST_VERSION : Int := 2
def MANIFEST_OFFSET : Nat := 0x200

inductive PythonError where
  | ValueError (message : String)
  /-- A text with a surrogate, which `encode("utf-8")` does not take. -/
  | UnicodeEncodeError
  /-- A number that the format `I` of `struct.pack` does not take. -/
  | StructError
deriving DecidableEq, Repr

/-- The dictionary `relocation`. -/
structure Relocation where
  vector_words : Int
  got_offset : Int
  got_size : Int
  data_load_offset : Int
deriving DecidableEq, Repr

/-- The dictionary `metadata`. -/
structure Metadata where
  application_name : Text
  application_id : UInt32
  board_name : Text
  board_id : UInt32
  manifest_version : Int
  manifest_size : Nat
  image_size : Nat
  image_crc32 : UInt32
  software_version : Int
  vector_words : Int
  got_offset : Int
  got_size : Int
  data_load_offset : Int
deriving DecidableEq, Repr

/-- `zlib.crc32`. -/
def zlib_crc32 (bytes : List UInt8) : UInt32 :=
  reflected_crc.overList reflected_crc.CRC32 bytes

def encode_utf8 (value : Text) : Except PythonError (List UInt8) :=
  (utf8 value).elim (.error .UnicodeEncodeError) .ok

def metadata_id (value : Text) : Except PythonError UInt32 := do
  let encoded ← encode_utf8 value
  return zlib_crc32 encoded

/-- One number in the format `I`. -/
def packWord (value : Int) : Except PythonError UInt32 :=
  if 0 ≤ value ∧ value ≤ 0xFFFFFFFF then .ok value.toNat.toUInt32 else .error .StructError

/-- `struct.pack` of numbers in the format `I`. -/
def struct_pack (values : List Int) : Except PythonError (List UInt8) := do
  let words ← values.mapM packWord
  return unpackAll words

/-- The words of the manifest with its CRC word. -/
def manifestValues (image_size : Nat) (image_crc32 : UInt32) (version : Int) (board_id : UInt32)
    (reserved : List Int) : List Int :=
  [MANIFEST_MAGIC, MANIFEST_VERSION, MANIFEST_SIZE, image_size, image_crc32.toNat, version,
    board_id.toNat, 0] ++ reserved

/-- `patched[MANIFEST_OFFSET:MANIFEST_OFFSET + MANIFEST_SIZE] = manifest`. -/
def patch (image manifest : List UInt8) : List UInt8 :=
  image.take MANIFEST_OFFSET ++ manifest ++ image.drop (MANIFEST_OFFSET + MANIFEST_SIZE)

def finalize_bytes (image : List UInt8) (version : Int) (app_name board_name : Text)
    (relocation : Option Relocation) :
    Except PythonError (List UInt8 × List UInt8 × Metadata) :=
  if image.length < MANIFEST_OFFSET + MANIFEST_SIZE then
    .error (.ValueError "image does not contain the application manifest")
  else if version < 0 ∨ version > 0xFFFFFFFF then
    .error (.ValueError "version must fit in 32 bits")
  else do
    let app_id ← metadata_id app_name
    let board_id ← metadata_id board_name
    let placed := relocation.getD ⟨0, 0, 0, 0⟩
    let reserved : List Int :=
      [app_id.toNat, board_id.toNat, placed.vector_words, placed.got_offset, placed.got_size,
        placed.data_load_offset, 0, 0]
    let manifest ← struct_pack (manifestValues image.length 0 version board_id reserved)
    let image_crc32 := zlib_crc32 (patch image manifest)
    let manifest ← struct_pack (manifestValues image.length image_crc32 version board_id reserved)
    return (patch image manifest, manifest,
      { application_name := app_name
        application_id := app_id
        board_name := board_name
        board_id := board_id
        manifest_version := MANIFEST_VERSION
        manifest_size := MANIFEST_SIZE
        image_size := image.length
        image_crc32 := image_crc32
        software_version := version
        vector_words := placed.vector_words
        got_offset := placed.got_offset
        got_size := placed.got_size
        data_load_offset := placed.data_load_offset })

/-! ## What `struct.pack` takes -/

theorem packWord_ok {value : Int} {word : UInt32} (h : packWord value = .ok word) :
    0 ≤ value ∧ value ≤ 0xFFFFFFFF ∧ word = value.toNat.toUInt32 := by
  unfold packWord at h
  split at h
  · rename_i hr
    cases h
    exact ⟨hr.1, hr.2, rfl⟩
  · cases h

theorem mapM_packWord {values : List Int} {words : List UInt32}
    (h : values.mapM packWord = .ok words) :
    words = values.map (fun value => value.toNat.toUInt32) ∧
      ∀ value ∈ values, 0 ≤ value ∧ value ≤ 0xFFFFFFFF := by
  induction values generalizing words with
  | nil => cases h; simp
  | cons value values ih =>
    rw [List.mapM_cons] at h
    cases hw : packWord value with
    | error e => rw [hw] at h; cases h
    | ok word =>
      obtain ⟨h0, h1, rfl⟩ := packWord_ok hw
      rw [hw] at h
      cases hws : values.mapM packWord with
      | error e => rw [hws] at h; cases h
      | ok rest =>
        rw [hws] at h
        cases h
        obtain ⟨hrest, hrange⟩ := ih hws
        refine ⟨by rw [hrest]; rfl, ?_⟩
        intro v hv
        rcases List.mem_cons.mp hv with rfl | hv
        · exact ⟨h0, h1⟩
        · exact hrange v hv

theorem struct_pack_ok {values : List Int} {bytes : List UInt8}
    (h : struct_pack values = .ok bytes) :
    bytes = unpackAll (values.map fun value => value.toNat.toUInt32) ∧
      ∀ value ∈ values, 0 ≤ value ∧ value ≤ 0xFFFFFFFF := by
  unfold struct_pack at h
  cases hw : values.mapM packWord with
  | error e => rw [hw] at h; cases h
  | ok words =>
    rw [hw] at h
    cases h
    obtain ⟨hwords, hrange⟩ := mapM_packWord hw
    exact ⟨by rw [hwords], hrange⟩

theorem struct_pack_total {values : List Int}
    (h : ∀ value ∈ values, 0 ≤ value ∧ value ≤ 0xFFFFFFFF) :
    struct_pack values = .ok (unpackAll (values.map fun value => value.toNat.toUInt32)) := by
  have hwords : values.mapM packWord = .ok (values.map fun value => value.toNat.toUInt32) := by
    induction values with
    | nil => rfl
    | cons value values ih =>
      have hword : packWord value = .ok value.toNat.toUInt32 :=
        if_pos (h value (List.mem_cons_self ..))
      rw [List.mapM_cons, hword, ih fun v hv => h v (List.mem_cons_of_mem _ hv)]
      rfl
  unfold struct_pack
  rw [hwords]
  rfl

/-! ## What the tool returns -/

/-- The words of the manifest in the finished image. -/
def manifestWords (metadata : Metadata) (image_crc32 : UInt32) : List UInt32 :=
  [0x45424956, 2, 64, metadata.image_size.toUInt32, image_crc32,
    metadata.software_version.toNat.toUInt32, metadata.board_id, 0, metadata.application_id,
    metadata.board_id, metadata.vector_words.toNat.toUInt32, metadata.got_offset.toNat.toUInt32,
    metadata.got_size.toNat.toUInt32, metadata.data_load_offset.toNat.toUInt32, 0, 0]

/-- A finished image: the manifest stands in it, and its CRC word is the CRC
of the image with that word zero. -/
structure Finalized (image : List UInt8) (binary : List UInt8) (metadata : Metadata) : Prop where
  room : MANIFEST_OFFSET + MANIFEST_SIZE ≤ image.length
  size : metadata.image_size = image.length
  size_lt : image.length < 2 ^ 32
  binary_eq : binary = patch image (unpackAll (manifestWords metadata metadata.image_crc32))
  crc : metadata.image_crc32 = zlib_crc32 (patch image (unpackAll (manifestWords metadata 0)))

theorem manifestValues_words (image_size : Nat) (image_crc32 : UInt32) (version : Int)
    (board_id : UInt32) (reserved : List Int) :
    (manifestValues image_size image_crc32 version board_id reserved).map
        (fun value => value.toNat.toUInt32) =
      [0x45424956, 2, 64, image_size.toUInt32, image_crc32, version.toNat.toUInt32, board_id, 0] ++
        reserved.map fun value => value.toNat.toUInt32 := by
  simp [manifestValues, MANIFEST_MAGIC, MANIFEST_VERSION, MANIFEST_SIZE]

/-- What the tool finishes has names with an id. -/
theorem finalize_bytes_ids {image : List UInt8} {version : Int} {app_name board_name : Text}
    {relocation : Option Relocation} {finished : List UInt8 × List UInt8 × Metadata}
    (h : finalize_bytes image version app_name board_name relocation = .ok finished) :
    ∃ app_id board_id, metadata_id app_name = .ok app_id ∧
      metadata_id board_name = .ok board_id := by
  unfold finalize_bytes at h
  split_ifs at h
  cases happ : metadata_id app_name with
  | error e => rw [happ] at h; cases h
  | ok app_id =>
    cases hboard : metadata_id board_name with
    | error e => rw [happ, hboard] at h; cases h
    | ok board_id => exact ⟨app_id, board_id, rfl, rfl⟩

theorem finalize_bytes_ok {image : List UInt8} {version : Int} {app_name board_name : Text}
    {relocation : Option Relocation} {binary manifest : List UInt8} {metadata : Metadata}
    (h : finalize_bytes image version app_name board_name relocation =
      .ok (binary, manifest, metadata)) : Finalized image binary metadata := by
  obtain ⟨app_id, board_id, happ, hboard⟩ := finalize_bytes_ids h
  unfold finalize_bytes at h
  split_ifs at h with h1 h2
  rw [happ, hboard] at h
  change (struct_pack _ >>= _) = _ at h
  generalize hr : relocation.getD ⟨0, 0, 0, 0⟩ = placed at h
  generalize hv : ([app_id.toNat, board_id.toNat, placed.vector_words, placed.got_offset,
    placed.got_size, placed.data_load_offset, 0, 0] : List Int) = reserved at h
  cases hfirst : struct_pack (manifestValues image.length 0 version board_id reserved) with
  | error e => rw [hfirst] at h; cases h
  | ok first =>
    rw [hfirst] at h
    obtain ⟨hfirst, hrange⟩ := struct_pack_ok hfirst
    change (struct_pack _ >>= _) = _ at h
    cases hsecond : struct_pack (manifestValues image.length (zlib_crc32 (patch image first))
        version board_id reserved) with
    | error e => rw [hsecond] at h; cases h
    | ok second =>
      rw [hsecond] at h
      obtain ⟨hsecond, -⟩ := struct_pack_ok hsecond
      cases h
      rw [manifestValues_words, ← hv] at hfirst hsecond
      have hsize := (hrange image.length (by simp [manifestValues])).2
      refine ⟨Nat.le_of_not_lt h1, rfl, by omega, ?_, ?_⟩
      · rw [hsecond]
        simp [manifestWords]
      · rw [hfirst]
        simp [manifestWords]

/-- The numbers of a relocation that the manifest can hold. -/
def Relocation.Fits (relocation : Relocation) : Prop :=
  ∀ value ∈ [relocation.vector_words, relocation.got_offset, relocation.got_size,
    relocation.data_load_offset], 0 ≤ value ∧ value ≤ 0xFFFFFFFF

/-- A name has an id when it has no surrogate. -/
theorem metadata_id_ok {name : Text} (h : Encodable name) : ∃ id, metadata_id name = .ok id := by
  obtain ⟨chars, rfl⟩ := chars_of_encodable h
  unfold metadata_id encode_utf8
  rw [utf8_chars]
  exact ⟨_, rfl⟩

theorem metadata_id_raises {name : Text} (h : ¬ Encodable name) :
    metadata_id name = .error .UnicodeEncodeError := by
  unfold metadata_id encode_utf8
  rw [utf8_none h]
  rfl

/-- A name with a surrogate ends the tool before it stamps anything. -/
theorem finalize_bytes_raises {image : List UInt8} {version : Int} {app_name board_name : Text}
    {relocation : Option Relocation} (hroom : MANIFEST_OFFSET + MANIFEST_SIZE ≤ image.length)
    (hversion : 0 ≤ version ∧ version ≤ 0xFFFFFFFF)
    (hnames : ¬ (Encodable app_name ∧ Encodable board_name)) :
    finalize_bytes image version app_name board_name relocation =
      .error .UnicodeEncodeError := by
  unfold finalize_bytes
  rw [if_neg (by omega), if_neg (by omega)]
  by_cases happ : Encodable app_name
  · obtain ⟨app_id, hid⟩ := metadata_id_ok happ
    rw [hid, metadata_id_raises fun hboard => hnames ⟨happ, hboard⟩]
    rfl
  · rw [metadata_id_raises happ]
    rfl

/-- The tool finishes every image that has room for the manifest, when the names
have an encoding and the numbers fit their words. -/
theorem finalize_bytes_total {image : List UInt8} {version : Int} {app_name board_name : Text}
    {relocation : Relocation} (hroom : MANIFEST_OFFSET + MANIFEST_SIZE ≤ image.length)
    (hlen : image.length < 2 ^ 32) (hv : 0 ≤ version ∧ version ≤ 0xFFFFFFFF)
    (happ : Encodable app_name) (hboard : Encodable board_name) (hr : relocation.Fits) :
    ∃ binary manifest metadata,
      finalize_bytes image version app_name board_name (some relocation) =
        .ok (binary, manifest, metadata) ∧
      metadata.vector_words = relocation.vector_words ∧
      metadata.got_offset = relocation.got_offset ∧ metadata.got_size = relocation.got_size := by
  obtain ⟨app_id, happ⟩ := metadata_id_ok happ
  obtain ⟨board_id, hboard⟩ := metadata_id_ok hboard
  have hfits : ∀ crc : UInt32, ∀ value ∈ manifestValues image.length crc version
      board_id [app_id.toNat, board_id.toNat, relocation.vector_words, relocation.got_offset,
        relocation.got_size, relocation.data_load_offset, 0, 0], 0 ≤ value ∧ value ≤ 0xFFFFFFFF := by
    intro crc value hmem
    have hword : ∀ w : UInt32, (w.toNat : Int) ≤ 0xFFFFFFFF := fun w => by
      have := w.toNat_lt
      omega
    unfold Relocation.Fits at hr
    simp only [manifestValues, MANIFEST_MAGIC, MANIFEST_VERSION, MANIFEST_SIZE, List.cons_append,
      List.nil_append, List.mem_cons, List.not_mem_nil, or_false] at hmem hr
    rcases hmem with rfl | rfl | rfl | rfl | rfl | rfl | rfl | rfl | rfl | rfl | rfl | rfl | rfl |
      rfl | rfl | rfl
    all_goals first
      | exact ⟨Int.natCast_nonneg _, hword _⟩
      | omega
      | exact hr _ (by simp)
  unfold finalize_bytes
  rw [if_neg (by omega), if_neg (by omega), happ, hboard]
  dsimp only [Option.getD_some, bind, Except.bind]
  rw [struct_pack_total (hfits 0)]
  dsimp only
  rw [struct_pack_total (hfits _)]
  exact ⟨_, _, _, rfl, rfl, rfl, rfl⟩

/-! ## The manifest in the finished image -/

section
variable {image binary : List UInt8} {metadata : Metadata}

theorem length_manifest (crc : UInt32) : (unpackAll (manifestWords metadata crc)).length = 64 := by
  rw [length_unpackAll]
  rfl

theorem length_patch (h : MANIFEST_OFFSET + MANIFEST_SIZE ≤ image.length) (crc : UInt32) :
    (patch image (unpackAll (manifestWords metadata crc))).length = image.length := by
  unfold MANIFEST_OFFSET MANIFEST_SIZE at h
  simp only [patch, List.length_append, List.length_take, List.length_drop, length_manifest,
    MANIFEST_OFFSET, MANIFEST_SIZE]
  omega

/-- A byte of the patched image: of the manifest, or of the image. -/
theorem getElem?_patch (h : MANIFEST_OFFSET + MANIFEST_SIZE ≤ image.length) (crc : UInt32)
    (i : Nat) :
    (patch image (unpackAll (manifestWords metadata crc)))[i]? =
      if 0x200 ≤ i ∧ i < 0x240 then
        (manifestWords metadata crc)[(i - 0x200) / 4]?.map fun w => lane w ((i - 0x200) % 4)
      else image[i]? := by
  unfold MANIFEST_OFFSET MANIFEST_SIZE at h
  have htake : (image.take 0x200).length = 0x200 := by
    rw [List.length_take]; omega
  unfold patch MANIFEST_OFFSET MANIFEST_SIZE
  by_cases h1 : i < 0x200
  · rw [List.append_assoc, List.getElem?_append_left (by omega), List.getElem?_take_of_lt h1,
      if_neg (by omega)]
  · by_cases h2 : i < 0x240
    · rw [if_pos ⟨by omega, h2⟩, List.append_assoc, List.getElem?_append_right (by omega), htake,
        List.getElem?_append_left (by rw [length_manifest]; omega), getElem?_unpackAll]
    · rw [if_neg (by omega), List.getElem?_append_right (by simp [length_manifest, htake]; omega),
        List.length_append, htake, length_manifest, List.getElem?_drop,
        show 0x200 + 64 + (i - (0x200 + 64)) = i by omega]

end

/-! ## The bootloader accepts a finished image -/

section
variable {image binary : List UInt8} {metadata : Metadata} {m : Memory}
  (h : Finalized image binary metadata) (hm : Holds m binary)
include h

theorem length_finalized : binary.length = image.length := by
  rw [h.binary_eq]
  exact length_patch h.room _

theorem finalized_size : metadata.image_size.toUInt32.toNat = binary.length := by
  rw [length_finalized h, h.size]
  exact UInt32.toNat_ofNat_of_lt' h.size_lt

include hm

theorem finalized_word (k : Nat) (hk : k < 16) :
    readWord m (0x200 + 4 * k) =
      (manifestWords metadata metadata.image_crc32).get ⟨k, hk⟩ := by
  apply readWord_of_lanes
  intro j hj
  apply hm.getElem?
  rw [h.binary_eq, getElem?_patch h.room, if_pos (by omega),
    show (0x200 + 4 * k + j - 0x200) / 4 = k by omega,
    show (0x200 + 4 * k + j - 0x200) % 4 = j by omega,
    List.getElem?_eq_getElem (show k < (manifestWords metadata _).length from hk)]
  rfl

/-- Before the manifest, the finished image is the image. -/
theorem finalized_head {i : Nat} (hi : i < 0x200) {b : UInt8} (hb : image[i]? = some b) :
    m i = b := by
  apply hm.getElem?
  rw [h.binary_eq, getElem?_patch h.room, if_neg (by omega)]
  exact hb

/-- The CRC of the bootloader reads the CRC word as zero, as the tool did. -/
theorem finalized_crc : image_crc32 m metadata.image_size.toUInt32 = metadata.image_crc32 := by
  have hlen := length_finalized h
  have hzero : Holds (reflected_crc.zeroWindow m IMAGE_CRC32_OFFSET)
      (patch image (unpackAll (manifestWords metadata 0))) := by
    apply holds_of_getElem?
    intro i b hb
    unfold reflected_crc.zeroWindow IMAGE_CRC32_OFFSET
    split
    · -- inside the window both have zeros
      rename_i hin
      rw [getElem?_patch h.room, if_pos (by omega), show (i - 0x200) / 4 = 4 by omega] at hb
      simp only [manifestWords, List.getElem?_cons_succ, List.getElem?_cons_zero, Option.map_some,
        Option.some.injEq, lane_zero] at hb
      exact hb
    · -- outside it the two manifests agree
      rename_i hout
      apply hm.getElem?
      rw [h.binary_eq, getElem?_patch h.room]
      rw [getElem?_patch h.room] at hb
      split
      · rename_i hin
        rw [if_pos hin] at hb
        have hset : manifestWords metadata metadata.image_crc32 =
            (manifestWords metadata 0).set 4 metadata.image_crc32 := rfl
        rw [hset, List.getElem?_set_ne (by omega)]
        exact hb
      · rename_i hin
        rw [if_neg hin] at hb
        exact hb
  have hcrc := reflected_crc.overMemory_eq_overList reflected_crc.CRC32 hzero
  rw [length_patch h.room, ← hlen, ← finalized_size h] at hcrc
  exact hcrc.trans h.crc.symm

theorem finalized_manifest :
    (manifestOf m).magic = APP_MANIFEST_MAGIC ∧
      (manifestOf m).manifest_version = APP_MANIFEST_VERSION ∧
      (manifestOf m).manifest_size = APP_MANIFEST_SIZE ∧
      (manifestOf m).image_size = metadata.image_size.toUInt32 ∧
      (manifestOf m).image_crc32 = metadata.image_crc32 ∧
      (manifestOf m).software_version = metadata.software_version.toNat.toUInt32 := by
  have hword := finalized_word h hm
  exact ⟨hword 0 (by omega), hword 1 (by omega), hword 2 (by omega), hword 3 (by omega),
    hword 4 (by omega), hword 5 (by omega)⟩

theorem finalized_relocation :
    app_manifest_vector_words (manifestOf m) = metadata.vector_words.toNat.toUInt32 ∧
      app_manifest_got_offset (manifestOf m) = metadata.got_offset.toNat.toUInt32 ∧
      app_manifest_got_size (manifestOf m) = metadata.got_size.toNat.toUInt32 := by
  have hword := finalized_word h hm
  unfold app_manifest_vector_words app_manifest_got_offset app_manifest_got_size manifestOf
  simp only [Vector.getElem_ofFn]
  exact ⟨hword 10 (by omega), hword 11 (by omega), hword 12 (by omega)⟩

/-- The image check accepts a finished image in a slot that it fits. -/
theorem finalized_valid {capacity : UInt32} (hfit : binary.length ≤ capacity.toNat) :
    (app_image_validate m capacity).status = .Valid := by
  obtain ⟨hmagic, hversion, hsize, himage, hcrc, -⟩ := finalized_manifest h hm
  have hlen := finalized_size h
  have hroom := h.room
  rw [← length_finalized h] at hroom
  unfold MANIFEST_OFFSET MANIFEST_SIZE at hroom
  have hmin : (APP_MANIFEST_OFFSET + APP_MANIFEST_SIZE).toNat = 0x240 := by decide
  rw [app_image_validate_iff]
  refine ⟨?_, hmagic, hversion, hsize, ?_, ?_, ?_⟩
  · rw [UInt32.lt_iff_toNat_lt, hmin]; omega
  · rw [himage, UInt32.lt_iff_toNat_lt, hmin]; omega
  · rw [himage, gt_iff_lt, UInt32.lt_iff_toNat_lt]; omega
  · rw [himage, hcrc]
    exact finalized_crc h hm

end

/-! ## A small image -/

/-- The smallest image with a manifest: a stack pointer, a reset offset, one
more vector, and zeros. -/
def smallImage (third : UInt32) : List UInt8 :=
  unpackAll ([0x20000000, 1, third] ++ List.replicate 141 0)

/-- The small image, finished with a number of vectors and an empty GOT. -/
@[irreducible] def smallBinary (third : UInt32) (vector_words : Nat) : List UInt8 :=
  match finalize_bytes (smallImage third) 1 (ofString "app") (ofString "board")
      (some ⟨vector_words, 0, 0, 0⟩) with
  | .ok (binary, _, _) => binary
  | .error _ => []

theorem length_smallImage (third : UInt32) : (smallImage third).length = 0x240 := by
  unfold smallImage
  rw [length_unpackAll]
  simp

theorem smallBinary_finalized (third : UInt32) {vector_words : Nat} (h : vector_words < 2 ^ 32) :
    ∃ manifest metadata,
      finalize_bytes (smallImage third) 1 (ofString "app") (ofString "board")
          (some ⟨vector_words, 0, 0, 0⟩) =
        .ok (smallBinary third vector_words, manifest, metadata) ∧
      metadata.vector_words = vector_words ∧ metadata.got_offset = 0 ∧ metadata.got_size = 0 := by
  have hlen := length_smallImage third
  obtain ⟨binary, manifest, metadata, hok, hv, ho, hs⟩ :=
    @finalize_bytes_total (smallImage third) 1 (ofString "app") (ofString "board")
      ⟨vector_words, 0, 0, 0⟩ (by rw [hlen]; decide) (by rw [hlen]; decide) (by decide)
      (encodable_ofString _) (encodable_ofString _) (by
        intro value hmem
        simp only [List.mem_cons, List.not_mem_nil, or_false] at hmem
        omega)
  refine ⟨manifest, metadata, ?_, hv, ho, hs⟩
  unfold smallBinary
  rw [hok]

theorem length_smallBinary (third : UInt32) {vector_words : Nat} (hw : vector_words < 2 ^ 32) :
    (smallBinary third vector_words).length = 0x240 := by
  obtain ⟨manifest, metadata, hok, -⟩ := smallBinary_finalized third hw
  rw [length_finalized (finalize_bytes_ok hok), length_smallImage]

section
variable {third : UInt32} {vector_words : Nat} {m : Memory}
  (hm : Holds m (smallBinary third vector_words)) (hw : vector_words < 2 ^ 32)
include hm hw

theorem small_manifest :
    (manifestOf m).image_size = 0x240 ∧
      app_manifest_vector_words (manifestOf m) = vector_words.toUInt32 ∧
      app_manifest_got_offset (manifestOf m) = 0 ∧ app_manifest_got_size (manifestOf m) = 0 := by
  obtain ⟨manifest, metadata, hok, hv, ho, hs⟩ := smallBinary_finalized third hw
  have hfin := finalize_bytes_ok hok
  obtain ⟨hvector, hoffset, hsize⟩ := finalized_relocation hfin hm
  obtain ⟨-, -, -, himage, -, -⟩ := finalized_manifest hfin hm
  rw [himage, hvector, hoffset, hsize, hv, ho, hs, hfin.size, length_smallImage]
  exact ⟨rfl, rfl, rfl, rfl⟩

theorem small_vectors : readWord m 0 = 0x20000000 ∧ readWord m 4 = 1 ∧ readWord m 8 = third := by
  obtain ⟨manifest, metadata, hok, -⟩ := smallBinary_finalized third hw
  have hfin := finalize_bytes_ok hok
  have hword : ∀ k w, k < 3 → ([0x20000000, 1, third] : List UInt32)[k]? = some w →
      readWord m (4 * k) = w := by
    intro k w hk hget
    apply readWord_of_lanes
    intro j hj
    apply finalized_head hfin hm (by omega)
    unfold smallImage
    rw [getElem?_unpackAll, show (4 * k + j) / 4 = k by omega, show (4 * k + j) % 4 = j by omega,
      List.getElem?_append_left (by exact hk), hget]
    rfl
  exact ⟨hword 0 _ (by omega) rfl, hword 1 _ (by omega) rfl, hword 2 _ (by omega) rfl⟩

/-- With a number of vectors that makes the image relocatable, its first two vectors are valid. -/
theorem small_vectorsAccepted (hr : 2 ≤ vector_words ∧ vector_words ≤ 128) (board : Board)
    (slot_start slot_end : UInt32) : vectorsAccepted board m 0x240 slot_start slot_end := by
  obtain ⟨-, hwords, -⟩ := small_manifest hm hw
  obtain ⟨h0, h4, -⟩ := small_vectors hm hw
  have htoNat : vector_words.toUInt32.toNat = vector_words := UInt32.toNat_ofNat_of_lt' hw
  have hrel : app_manifest_is_relocatable (manifestOf m) := by
    unfold app_manifest_is_relocatable
    rw [hwords, ge_iff_le, UInt32.le_iff_toNat_le, UInt32.le_iff_toNat_le, htoNat]
    exact hr
  unfold vectorsAccepted
  rw [if_pos hrel, h0, h4]
  cases board <;> decide

theorem small_valid {capacity : UInt32} (hfit : 0x240 ≤ capacity.toNat) :
    (app_image_validate m capacity).status = .Valid := by
  obtain ⟨manifest, metadata, hok, -⟩ := smallBinary_finalized third hw
  have hfin := finalize_bytes_ok hok
  have hlen := length_finalized hfin
  rw [length_smallImage] at hlen
  exact finalized_valid hfin hm (by omega)

end

end stm32_vibe.finalize_image
