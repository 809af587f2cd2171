-- The frames between the host and its USB-CAN adapter. The parser never looks for
-- a new frame inside one that it has seen the start of, so what was encoded comes
-- back, however the bytes are cut.
import Stm32Vibe.Lib.PackedFields
import Stm32Vibe.Lib.StreamScanner

namespace stm32_vibe.usb_can

open packed_fields stream_scanner

/-! ## Encoding -/

def MAX_CAN_DATA_LEN : Nat := 8

def BITRATE_CODES : List (Int × UInt8) :=
  [(1000000, 0x01), (800000, 0x02), (500000, 0x03), (400000, 0x04), (250000, 0x05),
    (200000, 0x06), (125000, 0x07), (100000, 0x08), (50000, 0x09), (20000, 0x0A),
    (10000, 0x0B), (5000, 0x0C)]

def MODE_NORMAL : Int := 0x00
def MODE_SILENT : Int := 0x01
def MODE_LOOPBACK : Int := 0x02
def MODE_SILENT_LOOPBACK : Int := 0x03

structure CanFrame where
  can_id : Int
  data : List UInt8
  extended : Bool
  remote : Bool
deriving DecidableEq, Repr

/-- The bytes, or the text of the `ValueError`. -/
def encode_settings (bitrate mode : Int) : Except String (List UInt8) :=
  match BITRATE_CODES.lookup bitrate with
  | none => .error ("unsupported CAN bitrate: " ++ toString bitrate)
  | some bitrate_code =>
    if ¬ (mode = MODE_NORMAL ∨ mode = MODE_LOOPBACK ∨ mode = MODE_SILENT ∨
        mode = MODE_SILENT_LOOPBACK) then
      .error ("unsupported CAN mode: " ++ toString mode)
    else
      let frame := [0xAA, 0x55, 0x12, bitrate_code, 0x01] ++ List.replicate 8 0x00 ++
        [mode.toNat.toUInt8, 0x00, 0x00, 0x00, 0x00, 0x00]
      .ok (frame ++ [((((frame.drop 2).take 17).map UInt8.toNat).sum &&& 0xFF).toUInt8])

/-- The type byte of a frame. -/
def frameType (length : Nat) (extended remote : Bool) : UInt8 :=
  let frame_type := 0xC0 ||| length.toUInt8
  let frame_type := if extended then frame_type ||| 0x20 else frame_type
  if remote then frame_type ||| 0x10 else frame_type

def maxId (extended : Bool) : Int := if extended then 0x1FFFFFFF else 0x7FF

/-- The bytes of the identifier. -/
def idSize (extended : Bool) : Nat := if extended then 4 else 2

/-- The bytes, or the text of the `ValueError`. -/
def encode_frame (frame : CanFrame) : Except String (List UInt8) :=
  if frame.data.length > MAX_CAN_DATA_LEN then .error "CAN payload exceeds 8 bytes"
  else
    let max_id := maxId frame.extended
    if frame.can_id < 0 ∨ frame.can_id > max_id then .error "CAN ID is out of range"
    else
      let id_size := idSize frame.extended
      let frame_type := frameType frame.data.length frame.extended frame.remote
      .ok ([0xAA, frame_type] ++ bytesOf id_size frame.can_id.toNat ++ frame.data ++ [0x55])

/-! ## Parsing -/

/-- One turn of the loop of `feed` on a buffer that is not empty: it stops, or it
deletes some bytes and may append a frame. -/
def parseTurn (buffer : List UInt8) : Option (List CanFrame × Nat) :=
  if buffer.getD 0 0 ≠ 0xAA then some ([], 1)
  else if buffer.length < 2 then none
  else
    let frame_type := buffer.getD 1 0
    if frame_type = 0x55 then
      if buffer.length < 20 then none else some ([], 20)
    else if frame_type &&& 0xC0 ≠ 0xC0 then some ([], 1)
    else
      let dlc := (frame_type &&& 0x0F).toNat
      if dlc > MAX_CAN_DATA_LEN then some ([], 1)
      else
        let extended := decide (frame_type &&& 0x20 ≠ 0)
        let id_size := idSize extended
        let frame_len := 2 + id_size + dlc + 1
        if buffer.length < frame_len then none
        else
          let candidate := buffer.take frame_len
          if candidate.getLastD 0 ≠ 0x55 then some ([], frame_len)
          else
            some ([{ can_id := valueOf ((candidate.drop 2).take id_size)
                     data := (candidate.drop (2 + id_size)).dropLast
                     extended
                     remote := decide (frame_type &&& 0x10 ≠ 0) }], frame_len)

theorem parseTurn_bounded : Bounded parseTurn := by
  intro buffer frames size hne h
  have hpos := List.length_pos_of_ne_nil hne
  unfold parseTurn at h
  dsimp only at h
  split_ifs at h
  all_goals
    simp only [Option.some.injEq, Prod.mk.injEq] at h
    omega

structure FrameParser where
  buffer : List UInt8

def FrameParser.init : FrameParser where
  buffer := []

def FrameParser.feed (parser : FrameParser) (data : List UInt8) : List CanFrame × FrameParser :=
  let (frames, buffer) := whileLoop parseTurn parseTurn_bounded (parser.buffer ++ data)
  (frames, { buffer })

/-- The frames of a row of chunks, and the parser after them. -/
def FrameParser.feedAll : FrameParser → List (List UInt8) → List CanFrame × FrameParser :=
  feedEach FrameParser.feed

/-- What a turn does, it does with any bytes after the buffer. -/
theorem parseTurn_stable : Stable parseTurn := by
  intro buffer frames size more hne h
  have hpos := List.length_pos_of_ne_nil hne
  have hlonger : (buffer ++ more).length = buffer.length + more.length := List.length_append
  unfold parseTurn at h ⊢
  rw [List.getD_append _ _ _ _ hpos]
  by_cases hstart : buffer.getD 0 0 ≠ 0xAA
  · rw [if_pos hstart] at h ⊢
    exact h
  rw [if_neg hstart] at h ⊢
  by_cases htype : buffer.length < 2
  · rw [if_pos htype] at h
    cases h
  rw [if_neg htype] at h
  rw [if_neg (by omega), List.getD_append _ _ _ _ (by omega)]
  dsimp only at h ⊢
  by_cases hsettings : buffer.getD 1 0 = 0x55
  · rw [if_pos hsettings] at h ⊢
    by_cases hshort : buffer.length < 20
    · rw [if_pos hshort] at h
      cases h
    · rw [if_neg hshort] at h
      rw [if_neg (by omega)]
      exact h
  rw [if_neg hsettings] at h ⊢
  split at h
  · rename_i hbits
    rw [if_pos hbits]
    exact h
  rename_i hbits
  rw [if_neg hbits]
  split at h
  · rename_i hdlc
    rw [if_pos hdlc]
    exact h
  rename_i hdlc
  rw [if_neg hdlc]
  split at h
  · cases h
  · rename_i hlong
    rw [if_neg (by omega), List.take_append_of_le_length (by omega)]
    exact h

/-! ## The frames that are sent -/

/-- What a type byte says of its frame. -/
theorem frameType_bits {length : Nat} (hlength : length ≤ MAX_CAN_DATA_LEN)
    (extended remote : Bool) :
    frameType length extended remote ≠ 0x55 ∧
      frameType length extended remote &&& 0xC0 = 0xC0 ∧
      (frameType length extended remote &&& 0x0F).toNat = length ∧
      (frameType length extended remote &&& 0x20 ≠ 0 ↔ extended = true) ∧
      (frameType length extended remote &&& 0x10 ≠ 0 ↔ remote = true) := by
  unfold MAX_CAN_DATA_LEN at hlength
  cases extended <;> cases remote <;> interval_cases length <;> decide

/-- What is encoded fits its frame. -/
theorem encode_frame_ok {frame : CanFrame} {bytes : List UInt8}
    (h : encode_frame frame = .ok bytes) :
    frame.data.length ≤ MAX_CAN_DATA_LEN ∧ 0 ≤ frame.can_id ∧
      frame.can_id.toNat < 256 ^ idSize frame.extended ∧
      bytes = 0xAA :: frameType frame.data.length frame.extended frame.remote ::
        (bytesOf (idSize frame.extended) frame.can_id.toNat ++ (frame.data ++ [0x55])) := by
  unfold encode_frame at h
  split at h
  · cases h
  rename_i hlength
  dsimp only at h
  split at h
  · cases h
  rename_i hrange
  cases h
  have hfits : frame.can_id.toNat < 256 ^ idSize frame.extended := by
    cases hextended : frame.extended
    · simp only [hextended, idSize, maxId, Bool.false_eq_true, if_false] at hrange ⊢
      omega
    · simp only [hextended, idSize, maxId, if_true] at hrange ⊢
      omega
  exact ⟨by omega, by omega, hfits, by simp⟩

theorem parseTurn_frame {frame : CanFrame} {bytes : List UInt8}
    (h : encode_frame frame = .ok bytes) (more : List UInt8) :
    parseTurn (bytes ++ more) = some ([frame], bytes.length) := by
  obtain ⟨hlength, hid, hfits, hbytes⟩ := encode_frame_ok h
  obtain ⟨hsettings, hbits, hdlc, hextended, hremote⟩ :=
    frameType_bits hlength frame.extended frame.remote
  generalize frameType frame.data.length frame.extended frame.remote = frame_type at *
  have hsize : bytes.length = 2 + idSize frame.extended + frame.data.length + 1 := by
    simp [hbytes, bytesOf_length]
    omega
  have hfirst : (bytes ++ more).getD 0 0 = 0xAA := by rw [hbytes]; rfl
  have hsecond : (bytes ++ more).getD 1 0 = frame_type := by rw [hbytes]; rfl
  have hlast : bytes.getLastD 0 = 0x55 := by
    have hconcat : bytes = (0xAA :: frame_type ::
        (bytesOf (idSize frame.extended) frame.can_id.toNat ++ frame.data)) ++ [0x55] := by
      simp [hbytes]
    rw [hconcat, List.getLastD_concat]
  have hvalue : valueOf ((bytes.drop 2).take (idSize frame.extended)) = frame.can_id.toNat := by
    rw [hbytes, List.drop_succ_cons, List.drop_succ_cons, List.drop_zero,
      List.take_left' (bytesOf_length _ _), valueOf_bytesOf hfits]
  have hdata : (bytes.drop (2 + idSize frame.extended)).dropLast = frame.data := by
    rw [← List.drop_drop, hbytes, List.drop_succ_cons, List.drop_succ_cons, List.drop_zero,
      List.drop_left' (bytesOf_length _ _), List.dropLast_concat]
  have hmore : ¬ (bytes ++ more).length < bytes.length := by
    rw [List.length_append]
    omega
  unfold parseTurn
  rw [hfirst, hsecond, if_neg (by simp), if_neg (by rw [List.length_append]; omega)]
  dsimp only
  rw [if_neg hsettings, if_neg (by simpa using hbits), hdlc, if_neg (by omega)]
  simp only [hextended, hremote, Bool.decide_eq_true]
  rw [← hsize, if_neg hmore, List.take_left, if_neg (by simpa using hlast), hvalue, hdata,
    Int.toNat_of_nonneg hid]

/-- What stands between the frames: the adapter is set up by twenty bytes with
a marker of their own. -/
def SettingsFrame (bytes : List UInt8) : Prop :=
  bytes.length = 20 ∧ bytes.take 2 = [0xAA, 0x55]

instance (bytes : List UInt8) : Decidable (SettingsFrame bytes) :=
  inferInstanceAs (Decidable (_ ∧ _))

theorem encode_settings_frame {bitrate mode : Int} {bytes : List UInt8}
    (h : encode_settings bitrate mode = .ok bytes) : SettingsFrame bytes := by
  unfold encode_settings at h
  split at h
  · cases h
  · split at h
    · cases h
    · cases h
      exact ⟨rfl, rfl⟩

theorem parseTurn_settings {bytes : List UInt8} (h : SettingsFrame bytes) (more : List UInt8) :
    parseTurn (bytes ++ more) = some ([], bytes.length) := by
  obtain ⟨hlength, hmarker⟩ := h
  match bytes with
  | [] => simp at hmarker
  | [_] => simp at hmarker
  | first :: second :: rest =>
    simp only [List.take_succ_cons, List.take_zero, List.cons.injEq, and_true] at hmarker
    obtain ⟨rfl, rfl⟩ := hmarker
    have hlong : ¬ (0xAA :: 0x55 :: rest ++ more).length < 20 := by
      rw [List.length_append]
      omega
    have hsecond : (0xAA :: 0x55 :: rest ++ more).getD 1 0 = 0x55 := rfl
    unfold parseTurn
    rw [if_neg (by simp), if_neg (by simp)]
    dsimp only
    rw [if_pos hsecond, if_neg hlong, hlength]

/-- What is sent to the adapter or comes from it, with its bytes. -/
inductive Piece where
  | can (frame : CanFrame) (bytes : List UInt8) (encoded : encode_frame frame = .ok bytes)
  | settings (bytes : List UInt8) (framed : SettingsFrame bytes)

def Piece.bytes : Piece → List UInt8
  | .can _ bytes _ => bytes
  | .settings bytes _ => bytes

def Piece.frames : Piece → List CanFrame
  | .can frame _ _ => [frame]
  | .settings _ _ => []

theorem Piece.bytes_ne_nil (piece : Piece) : piece.bytes ≠ [] := by
  cases piece with
  | can frame bytes encoded =>
    show bytes ≠ []
    rw [(encode_frame_ok encoded).2.2.2]
    simp
  | settings bytes framed =>
    rintro rfl
    exact absurd framed (by decide)

theorem parseTurn_piece (piece : Piece) (more : List UInt8) :
    parseTurn (piece.bytes ++ more) = some (piece.frames, piece.bytes.length) := by
  cases piece with
  | can frame bytes encoded => exact parseTurn_frame encoded more
  | settings bytes framed => exact parseTurn_settings framed more

/-- What was encoded comes back, with settings in between and however the bytes
are cut. -/
theorem feedAll_pieces (pieces : List Piece) (chunks : List (List UInt8))
    (hchunks : chunks.flatten = pieces.flatMap Piece.bytes) :
    FrameParser.init.feedAll chunks = (pieces.flatMap Piece.frames, FrameParser.init) := by
  have hread : ∀ rest data, FrameParser.feed ⟨rest⟩ data =
      ((whileLoop parseTurn parseTurn_bounded (rest ++ data)).1,
        ⟨(whileLoop parseTurn parseTurn_bounded (rest ++ data)).2⟩) := fun _ _ => rfl
  exact feedEach_pieces parseTurn_bounded parseTurn_stable hread Piece.bytes_ne_nil
    parseTurn_piece pieces hchunks

/-- A frame with both markers in its data, settings, and a remote frame, cut twice. -/
theorem feedAll_pieces_split :
    FrameParser.init.feedAll
      [[0xAA, 0xC2, 0x23, 0x01, 0xAA], [0x55, 0x55, 0xAA],
        [0x55] ++ List.replicate 18 0 ++ [0xAA, 0xF0, 0x78, 0x56, 0x34, 0x12, 0x55]] =
      ([⟨0x123, [0xAA, 0x55], false, false⟩, ⟨0x12345678, [], true, true⟩], FrameParser.init) :=
  feedAll_pieces
    [.can ⟨0x123, [0xAA, 0x55], false, false⟩ [0xAA, 0xC2, 0x23, 0x01, 0xAA, 0x55, 0x55] rfl,
      .settings ([0xAA, 0x55] ++ List.replicate 18 0) ⟨rfl, rfl⟩,
      .can ⟨0x12345678, [], true, true⟩ [0xAA, 0xF0, 0x78, 0x56, 0x34, 0x12, 0x55] rfl]
    _ rfl

end stm32_vibe.usb_can
