-- The packets of the update protocol: a header of 16 bytes, the payload and a
-- CRC over both. What `update_protocol_decode` accepts is described once, and
-- the round trips use only that.
import Stm32Vibe.Lib.Crc

namespace stm32_vibe.update_protocol

open little_endian

/-! ## Packets -/

def UPDATE_PROTOCOL_SYNC : UInt16 := 0x5544
def UPDATE_PROTOCOL_VERSION : UInt8 := 1
def UPDATE_PROTOCOL_HEADER_SIZE : Nat := 16
def UPDATE_PROTOCOL_CRC_SIZE : Nat := 4
def UPDATE_PROTOCOL_MAX_PAYLOAD : Nat := 128
def UPDATE_PROTOCOL_MAX_PACKET_SIZE : Nat :=
  UPDATE_PROTOCOL_HEADER_SIZE + UPDATE_PROTOCOL_MAX_PAYLOAD + UPDATE_PROTOCOL_CRC_SIZE

def UPDATE_CMD_DISCOVER : UInt8 := 1
def UPDATE_CMD_STATUS : UInt8 := 2
def UPDATE_CMD_BEGIN : UInt8 := 3
def UPDATE_CMD_BLOCK : UInt8 := 4
def UPDATE_CMD_END : UInt8 := 5
def UPDATE_CMD_VALIDATE : UInt8 := 6
def UPDATE_CMD_ACTIVATE : UInt8 := 7
def UPDATE_CMD_ABORT : UInt8 := 8
def UPDATE_CMD_ACK : UInt8 := 10
def UPDATE_CMD_ENTER_UPDATE : UInt8 := 11

/-- `update_status_t`. -/
inductive UpdateStatus where
  | Ok
  | InvalidArgument
  | BufferTooSmall
  | BadSync
  | BadVersion
  | BadLength
  | BadCrc
  | BadState
  | BadSequence
  | FlashError
  | BadImage
deriving DecidableEq, Repr

/-- The value of the status in a packet. -/
def UpdateStatus.code : UpdateStatus → UInt8
  | .Ok => 0
  | .InvalidArgument => 1
  | .BufferTooSmall => 2
  | .BadSync => 3
  | .BadVersion => 4
  | .BadLength => 5
  | .BadCrc => 6
  | .BadState => 7
  | .BadSequence => 8
  | .FlashError => 9
  | .BadImage => 10

/-- `update_packet_t`, with the bytes that `payload` points to. -/
@[ext]
structure UpdatePacket where
  command : UInt8
  flags : UInt8
  payload_len : UInt16
  session_id : UInt32
  sequence : UInt32
  payload : List UInt8
  length_payload : payload.length = payload_len.toNat

/-- `update_packet_t packet = {0}`. -/
def emptyPacket : UpdatePacket where
  command := 0
  flags := 0
  payload_len := 0
  session_id := 0
  sequence := 0
  payload := []
  length_payload := rfl

/-! ## The codec -/

def read_u16_le (bytes : List UInt8) (offset : Nat) : UInt16 :=
  packHalf (bytes.getD offset 0) (bytes.getD (offset + 1) 0)

/-- `read_u32_le(&payload[offset])`. -/
def read_u32_le (payload : List UInt8) (offset : Nat) : UInt32 :=
  readWord (fun index => payload.getD index 0) offset

def write_u16_le (value : UInt16) : List UInt8 := unpackHalf value

def write_u32_le (value : UInt32) : List UInt8 := unpack value

def crc32_update (crc : UInt32) (value : UInt8) : UInt32 :=
  reflected_crc.update reflected_crc.CRC32 crc value

def update_protocol_crc32 (data : List UInt8) (len : Nat) : UInt32 :=
  (data.take len).foldl crc32_update 0xFFFFFFFF ^^^ 0xFFFFFFFF

/-- What `update_protocol_encode` writes before the CRC. -/
def message (packet : UpdatePacket) : List UInt8 :=
  write_u16_le UPDATE_PROTOCOL_SYNC ++
    [UPDATE_PROTOCOL_VERSION, packet.command, packet.flags, 0] ++
    write_u16_le packet.payload_len ++ write_u32_le packet.session_id ++
    write_u32_le packet.sequence ++ packet.payload

/-- The bytes written to `output`, or the status. -/
def update_protocol_encode (packet : UpdatePacket) (output_capacity : Nat) :
    Except UpdateStatus (List UInt8) :=
  let total_len :=
    UPDATE_PROTOCOL_HEADER_SIZE + packet.payload_len.toNat + UPDATE_PROTOCOL_CRC_SIZE
  if packet.payload_len.toNat > UPDATE_PROTOCOL_MAX_PAYLOAD then .error .BadLength
  else if output_capacity < total_len then .error .BufferTooSmall
  else
    let crc := update_protocol_crc32 (message packet)
      (UPDATE_PROTOCOL_HEADER_SIZE + packet.payload_len.toNat)
    .ok (message packet ++ write_u32_le crc)

/-- The status, the output packet and the payload buffer, which the packet points into. -/
def update_protocol_decode (input : List UInt8) (packet : UpdatePacket) (payload : Memory)
    (payload_capacity : Nat) : UpdateStatus × UpdatePacket × Memory :=
  if input.length < UPDATE_PROTOCOL_HEADER_SIZE + UPDATE_PROTOCOL_CRC_SIZE then
    (.BadLength, packet, payload)
  else if read_u16_le input 0 ≠ UPDATE_PROTOCOL_SYNC then (.BadSync, packet, payload)
  else if input.getD 2 0 ≠ UPDATE_PROTOCOL_VERSION then (.BadVersion, packet, payload)
  else
    let payload_len := read_u16_le input 6
    let crc_offset := UPDATE_PROTOCOL_HEADER_SIZE + payload_len.toNat
    if payload_len.toNat > UPDATE_PROTOCOL_MAX_PAYLOAD then (.BadLength, packet, payload)
    else if input.length ≠ crc_offset + UPDATE_PROTOCOL_CRC_SIZE then
      (.BadLength, packet, payload)
    else if payload_capacity < payload_len.toNat then (.BufferTooSmall, packet, payload)
    else if update_protocol_crc32 input crc_offset ≠ read_u32_le input crc_offset then
      (.BadCrc, packet, payload)
    else
      let payload : Memory := fun index =>
        if index < payload_len.toNat then input.getD (UPDATE_PROTOCOL_HEADER_SIZE + index) 0
        else payload index
      (.Ok,
        { command := input.getD 3 0
          flags := input.getD 4 0
          payload_len
          session_id := read_u32_le input 8
          sequence := read_u32_le input 12
          payload := (List.range payload_len.toNat).map payload
          length_payload := by simp },
        payload)

/-! ## What the decoder accepts -/

/-- The inputs that `update_protocol_decode` accepts when the payload has room. -/
structure Accepts (input : List UInt8) : Prop where
  sync : read_u16_le input 0 = UPDATE_PROTOCOL_SYNC
  version : input.getD 2 0 = UPDATE_PROTOCOL_VERSION
  fits : (read_u16_le input 6).toNat ≤ 128
  length : input.length = 20 + (read_u16_le input 6).toNat
  crc : update_protocol_crc32 input (16 + (read_u16_le input 6).toNat) =
    read_u32_le input (16 + (read_u16_le input 6).toNat)

/-- The packet in an accepted input. -/
def decoded (input : List UInt8) : UpdatePacket where
  command := input.getD 3 0
  flags := input.getD 4 0
  payload_len := read_u16_le input 6
  session_id := read_u32_le input 8
  sequence := read_u32_le input 12
  payload := (List.range (read_u16_le input 6).toNat).map fun index => input.getD (16 + index) 0
  length_payload := by simp

/-- The payload buffer after an accepted input. -/
def copyPayload (input : List UInt8) (payload : Memory) : Memory := fun index =>
  if index < (read_u16_le input 6).toNat then input.getD (16 + index) 0 else payload index

/-- The payload pointer of the packet points to the copied bytes. -/
theorem decoded_payload (input : List UInt8) (payload : Memory) :
    (decoded input).payload =
      (List.range (read_u16_le input 6).toNat).map (copyPayload input payload) := by
  apply List.map_congr_left
  intro index hindex
  unfold copyPayload
  rw [if_pos (List.mem_range.mp hindex)]

/-- The checks of the decoder in order. -/
theorem decode_eq (input : List UInt8) (packet : UpdatePacket) (payload : Memory)
    (payload_capacity : Nat) :
    update_protocol_decode input packet payload payload_capacity =
      if input.length < 20 then (.BadLength, packet, payload)
      else if read_u16_le input 0 ≠ UPDATE_PROTOCOL_SYNC then (.BadSync, packet, payload)
      else if input.getD 2 0 ≠ UPDATE_PROTOCOL_VERSION then (.BadVersion, packet, payload)
      else if (read_u16_le input 6).toNat > 128 then (.BadLength, packet, payload)
      else if input.length ≠ 16 + (read_u16_le input 6).toNat + 4 then (.BadLength, packet, payload)
      else if payload_capacity < (read_u16_le input 6).toNat then
        (.BufferTooSmall, packet, payload)
      else if update_protocol_crc32 input (16 + (read_u16_le input 6).toNat) ≠
          read_u32_le input (16 + (read_u16_le input 6).toNat) then (.BadCrc, packet, payload)
      else (.Ok, decoded input, copyPayload input payload) := by
  have hdecoded : decoded input = { decoded input with
      payload := (List.range (read_u16_le input 6).toNat).map (copyPayload input payload)
      length_payload := by simp [decoded] } := by
    ext1 <;> first | rfl | exact decoded_payload input payload
  rw [hdecoded]
  rfl

theorem decode_accepted {input : List UInt8} (h : Accepts input) (packet : UpdatePacket)
    (payload : Memory) {payload_capacity : Nat}
    (hroom : (read_u16_le input 6).toNat ≤ payload_capacity) :
    update_protocol_decode input packet payload payload_capacity =
      (.Ok, decoded input, copyPayload input payload) := by
  obtain ⟨hsync, hversion, hfits, hlength, hcrc⟩ := h
  have hlong : ¬ input.length < 20 := by omega
  have htotal : input.length = 16 + (read_u16_le input 6).toNat + 4 := by omega
  rw [decode_eq, if_neg hlong, if_neg (not_not.mpr hsync), if_neg (not_not.mpr hversion),
    if_neg (Nat.not_lt.mpr hfits), if_neg (not_not.mpr htotal), if_neg (Nat.not_lt.mpr hroom),
    if_neg (not_not.mpr hcrc)]

/-- Every other input leaves the packet and the payload buffer as they were. -/
theorem decode_rejected {input : List UInt8} {payload_capacity : Nat}
    (h : ¬ (Accepts input ∧ (read_u16_le input 6).toNat ≤ payload_capacity))
    (packet : UpdatePacket) (payload : Memory) :
    ∃ status, status ≠ .Ok ∧
      update_protocol_decode input packet payload payload_capacity = (status, packet, payload) := by
  rw [decode_eq]
  split_ifs with hshort hsync hversion hfits hlength hroom hcrc
  · exact ⟨.BadLength, nofun, rfl⟩
  · exact ⟨.BadSync, nofun, rfl⟩
  · exact ⟨.BadVersion, nofun, rfl⟩
  · exact ⟨.BadLength, nofun, rfl⟩
  · exact ⟨.BadLength, nofun, rfl⟩
  · exact ⟨.BufferTooSmall, nofun, rfl⟩
  · exact ⟨.BadCrc, nofun, rfl⟩
  · exfalso
    simp only [not_not] at hsync hversion hlength hcrc
    exact h ⟨⟨hsync, hversion, by omega, by omega, hcrc⟩, by omega⟩

theorem decode_ok_iff (input : List UInt8) (packet : UpdatePacket) (payload : Memory)
    (payload_capacity : Nat) :
    (update_protocol_decode input packet payload payload_capacity).1 = .Ok ↔
      Accepts input ∧ (read_u16_le input 6).toNat ≤ payload_capacity := by
  by_cases h : Accepts input ∧ (read_u16_le input 6).toNat ≤ payload_capacity
  · simp [decode_accepted h.1 packet payload h.2, h]
  · obtain ⟨status, hstatus, hdecode⟩ := decode_rejected h packet payload
    simp [hdecode, hstatus, h]

/-! ## Encoding and decoding -/

section
variable (packet : UpdatePacket) (rest : List UInt8)

@[simp] theorem length_message : (message packet).length = 16 + packet.payload_len.toNat := by
  simp [message, write_u16_le, write_u32_le, unpackHalf, unpack, packet.length_payload]
  omega

@[simp] theorem read_message_len : read_u16_le (message packet ++ rest) 6 = packet.payload_len :=
  packHalf_bytes packet.payload_len

/-- Past the header stands the payload. -/
theorem getD_message {index : Nat} (h : index < packet.payload_len.toNat) :
    (message packet ++ rest).getD (16 + index) 0 = packet.payload.getD index 0 := by
  have hlength := packet.length_payload
  have hskip : ∀ header : List UInt8, header.length = 16 →
      (header ++ packet.payload ++ rest).getD (16 + index) 0 = packet.payload.getD index 0 := by
    intro header hheader
    rw [List.append_assoc, List.getD_append_right _ _ _ _ (by omega), hheader,
      Nat.add_sub_cancel_left, List.getD_append _ _ _ _ (by omega)]
  exact hskip _ rfl

/-- Decoding reads back every field. -/
theorem decoded_message : decoded (message packet ++ rest) = packet := by
  ext1
  · rfl
  · rfl
  · exact read_message_len packet rest
  · exact pack_lanes packet.session_id
  · exact pack_lanes packet.sequence
  · have hlength := packet.length_payload
    apply List.ext_getElem
    · simp [decoded, hlength]
    · intro index h h'
      have hindex : index < packet.payload_len.toNat := by omega
      have hget := getD_message packet rest hindex
      simp only [decoded, List.getElem_map, List.getElem_range, hget]
      exact List.getD_eq_getElem _ _ h'

theorem crc32_append (data : List UInt8) {len : Nat} (h : len ≤ data.length) :
    update_protocol_crc32 (data ++ rest) len = update_protocol_crc32 data len := by
  unfold update_protocol_crc32
  rw [List.take_append_of_le_length h]

theorem read_append_word (data : List UInt8) (word : UInt32) :
    read_u32_le (data ++ write_u32_le word) data.length = word := by
  apply readWord_of_lanes
  intro j hj
  rw [List.getD_append_right _ _ _ _ (by omega), Nat.add_sub_cancel_left]
  rcases (by omega : j = 0 ∨ j = 1 ∨ j = 2 ∨ j = 3) with rfl | rfl | rfl | rfl <;> rfl

end

/-- The bytes of a packet, with the CRC of its message. -/
def encoded (packet : UpdatePacket) : List UInt8 :=
  message packet ++ write_u32_le
    (update_protocol_crc32 (message packet) (16 + packet.payload_len.toNat))

theorem length_encoded (packet : UpdatePacket) :
    (encoded packet).length = 20 + packet.payload_len.toNat := by
  simp [encoded, write_u32_le, unpack]
  omega

theorem encode_eq (packet : UpdatePacket) (output_capacity : Nat) :
    update_protocol_encode packet output_capacity =
      if packet.payload_len.toNat > 128 then .error .BadLength
      else if output_capacity < 16 + packet.payload_len.toNat + 4 then .error .BufferTooSmall
      else .ok (encoded packet) := rfl

theorem encode_ok {packet : UpdatePacket} {output_capacity : Nat}
    (hfits : packet.payload_len.toNat ≤ 128)
    (hroom : 20 + packet.payload_len.toNat ≤ output_capacity) :
    update_protocol_encode packet output_capacity = .ok (encoded packet) := by
  have htotal : ¬ output_capacity < 16 + packet.payload_len.toNat + 4 := by omega
  rw [encode_eq, if_neg (Nat.not_lt.mpr hfits), if_neg htotal]

theorem encode_inv {packet : UpdatePacket} {output_capacity : Nat} {bytes : List UInt8}
    (h : update_protocol_encode packet output_capacity = .ok bytes) :
    packet.payload_len.toNat ≤ 128 ∧ bytes = encoded packet := by
  rw [encode_eq] at h
  split_ifs at h with hlong hshort
  exact ⟨Nat.not_lt.mp hlong, (Except.ok.inj h).symm⟩

theorem encoded_accepts {packet : UpdatePacket} (hfits : packet.payload_len.toNat ≤ 128) :
    Accepts (encoded packet) := by
  have hlen : read_u16_le (encoded packet) 6 = packet.payload_len := read_message_len packet _
  refine ⟨packHalf_bytes UPDATE_PROTOCOL_SYNC, rfl, ?_, ?_, ?_⟩
  · rwa [hlen]
  · rw [hlen, length_encoded]
  · have hlast := read_append_word (message packet)
      (update_protocol_crc32 (message packet) (16 + packet.payload_len.toNat))
    rw [length_message] at hlast
    rw [hlen]
    unfold encoded
    rw [crc32_append _ _ (Nat.le_of_eq (length_message packet).symm), hlast]

/-! ## Encoding an accepted input again -/

section
variable {input : List UInt8}

/-- A word that was read is written as the bytes it was read from. -/
theorem lane_read (input : List UInt8) (offset : Nat) {k : Nat} (hk : k < 4) :
    lane (read_u32_le input offset) k = input.getD (offset + k) 0 :=
  lane_pack (fun k => input.getD (offset + k) 0) hk

/-- Every header byte but the reserved one is written as it was read. -/
theorem header_byte (h : Accepts input) {k : Nat} (hk : k < 16) (h5 : k ≠ 5) :
    (message (decoded input)).getD k 0 = input.getD k 0 := by
  have hsync0 : UPDATE_PROTOCOL_SYNC.toUInt8 = input.getD 0 0 := by
    rw [← h.sync]
    exact low_packHalf _ _
  have hsync1 : (UPDATE_PROTOCOL_SYNC >>> 8).toUInt8 = input.getD 1 0 := by
    rw [← h.sync]
    exact high_packHalf _ _
  interval_cases k
  · exact hsync0
  · exact hsync1
  · exact h.version.symm
  · rfl
  · rfl
  · exact absurd rfl h5
  · exact low_packHalf _ _
  · exact high_packHalf _ _
  · exact lane_read input 8 (by decide : 0 < 4)
  · exact lane_read input 8 (by decide : 1 < 4)
  · exact lane_read input 8 (by decide : 2 < 4)
  · exact lane_read input 8 (by decide : 3 < 4)
  · exact lane_read input 12 (by decide : 0 < 4)
  · exact lane_read input 12 (by decide : 1 < 4)
  · exact lane_read input 12 (by decide : 2 < 4)
  · exact lane_read input 12 (by decide : 3 < 4)

theorem message_byte (h : Accepts input) {k : Nat}
    (hk : k < 16 + (read_u16_le input 6).toNat) (h5 : k ≠ 5) :
    (message (decoded input)).getD k 0 = input.getD k 0 := by
  by_cases hheader : k < 16
  · exact header_byte h hheader h5
  · have hlt : k - 16 < (read_u16_le input 6).toNat := by omega
    have hget := getD_message (decoded input) [] hlt
    have hback : 16 + (k - 16) = k := by omega
    rw [List.append_nil, hback] at hget
    rw [hget, List.getD_eq_getElem _ _ (by simpa [decoded] using hlt)]
    simp [decoded, hback]

/-- The message again, with the reserved byte cleared. -/
theorem message_decoded (h : Accepts input) :
    message (decoded input) = (input.take (16 + (read_u16_le input 6).toNat)).set 5 0 := by
  have hlength := h.length
  have hmessage : (message (decoded input)).length = 16 + (read_u16_le input 6).toNat :=
    length_message _
  apply List.ext_getElem
  · rw [hmessage, List.length_set, List.length_take]
    omega
  · intro k hk hk'
    rw [hmessage] at hk
    rw [← List.getD_eq_getElem _ 0, List.getElem_set, List.getElem_take]
    by_cases h5 : 5 = k
    · subst h5
      rfl
    · rw [if_neg h5, message_byte h hk (Ne.symm h5), List.getD_eq_getElem]

theorem input_split (h : Accepts input) :
    input = input.take (16 + (read_u16_le input 6).toNat) ++
      write_u32_le (read_u32_le input (16 + (read_u16_le input 6).toNat)) := by
  have hlength := h.length
  have hdrop : input.drop (16 + (read_u16_le input 6).toNat) =
      write_u32_le (read_u32_le input (16 + (read_u16_le input 6).toNat)) := by
    apply List.ext_getElem
    · rw [List.length_drop, hlength]
      simp [write_u32_le, unpack]
      omega
    · intro k hk hk'
      have hk4 : k < 4 := hk'
      rw [List.getElem_drop, ← List.getD_eq_getElem _ 0, ← lane_read input _ hk4]
      rcases (by omega : k = 0 ∨ k = 1 ∨ k = 2 ∨ k = 3) with rfl | rfl | rfl | rfl <;> rfl
  rw [← hdrop, List.take_append_drop]

/-- With the reserved byte clear, encoding gives the input back. -/
theorem encoded_decoded (h : Accepts input) (hreserved : input.getD 5 0 = 0) :
    encoded (decoded input) = input := by
  have hlength := h.length
  have hmessage : message (decoded input) = input.take (16 + (read_u16_le input 6).toNat) := by
    rw [message_decoded h]
    have hlt : 5 < (input.take (16 + (read_u16_le input 6).toNat)).length := by
      rw [List.length_take]
      omega
    have h5 : (input.take (16 + (read_u16_le input 6).toNat))[5] = 0 := by
      rw [List.getElem_take, ← List.getD_eq_getElem _ 0, hreserved]
    conv_lhs => rw [← h5]
    exact List.set_getElem_self hlt
  have hcrc : update_protocol_crc32 (message (decoded input))
      (16 + (decoded input).payload_len.toNat) =
        read_u32_le input (16 + (read_u16_le input 6).toNat) := by
    rw [← h.crc, hmessage]
    unfold update_protocol_crc32
    rw [List.take_take, show (decoded input).payload_len = read_u16_le input 6 from rfl,
      Nat.min_self]
  conv_rhs => rw [input_split h]
  unfold encoded
  rw [hcrc, hmessage]

/-- Encoding changes the reserved byte and the CRC at most. -/
theorem encoded_byte (h : Accepts input) {k : Nat}
    (hk : k < 16 + (read_u16_le input 6).toNat) (h5 : k ≠ 5) :
    (encoded (decoded input)).getD k 0 = input.getD k 0 := by
  have hmessage : (message (decoded input)).length = 16 + (read_u16_le input 6).toNat :=
    length_message _
  unfold encoded
  rw [List.getD_append _ _ _ _ (by omega), message_byte h hk h5]

end

/-! ## The round trips -/

/-- The sync, the version, the length or the CRC is wrong. -/
def Malformed (input : List UInt8) : Prop :=
  read_u16_le input 0 ≠ UPDATE_PROTOCOL_SYNC ∨ input.getD 2 0 ≠ UPDATE_PROTOCOL_VERSION ∨
    (read_u16_le input 6).toNat > UPDATE_PROTOCOL_MAX_PAYLOAD ∨
    input.length ≠ 20 + (read_u16_le input 6).toNat ∨
    update_protocol_crc32 input (16 + (read_u16_le input 6).toNat) ≠
      read_u32_le input (16 + (read_u16_le input 6).toNat)

theorem Malformed.not_accepts {input : List UInt8} (h : Malformed input) : ¬ Accepts input := by
  rintro ⟨hsync, hversion, hfits, hlength, hcrc⟩
  rcases h with h | h | h | h | h
  · exact h hsync
  · exact h hversion
  · exact absurd hfits (Nat.not_le.mpr h)
  · exact h hlength
  · exact h hcrc

/-- Decoding an encoded packet gives it back. Encoding a decoded packet gives
the input back up to the reserved byte and the CRC. Every malformed input is
rejected, and the output packet stays. -/
theorem codec_round_trips :
    (∀ (packet old : UpdatePacket) (payload : Memory) (output_capacity payload_capacity : Nat),
      packet.payload_len.toNat ≤ UPDATE_PROTOCOL_MAX_PAYLOAD →
      20 + packet.payload_len.toNat ≤ output_capacity →
      packet.payload_len.toNat ≤ payload_capacity →
      ∃ bytes payload', update_protocol_encode packet output_capacity = .ok bytes ∧
        update_protocol_decode bytes old payload payload_capacity = (.Ok, packet, payload')) ∧
    (∀ (input : List UInt8) (old packet : UpdatePacket) (payload payload' : Memory),
      update_protocol_decode input old payload UPDATE_PROTOCOL_MAX_PAYLOAD =
        (.Ok, packet, payload') →
      input.length = 20 + packet.payload_len.toNat ∧ input.length ≤ 148 ∧
        ∃ bytes, update_protocol_encode packet 148 = .ok bytes ∧ bytes.length = input.length ∧
          (bytes = input ↔ input.getD 5 0 = 0) ∧
          ∀ k < 16 + packet.payload_len.toNat, k ≠ 5 → bytes.getD k 0 = input.getD k 0) ∧
    ∀ (input : List UInt8) (old : UpdatePacket) (payload : Memory) (payload_capacity : Nat),
      Malformed input →
        (update_protocol_decode input old payload payload_capacity).1 ≠ .Ok ∧
        (update_protocol_decode input old payload payload_capacity).2.1 = old := by
  refine ⟨?_, ?_, ?_⟩
  · intro packet old payload output_capacity payload_capacity hfits hroom hpayload
    have hlen : read_u16_le (encoded packet) 6 = packet.payload_len := read_message_len packet _
    rw [← hlen] at hpayload
    have hdecode := decode_accepted (encoded_accepts hfits) old payload hpayload
    rw [show decoded (encoded packet) = packet from decoded_message packet _] at hdecode
    exact ⟨_, _, encode_ok hfits hroom, hdecode⟩
  · intro input old packet payload payload' hdecode
    obtain ⟨accepts, hroom⟩ := (decode_ok_iff input old payload _).mp (congrArg Prod.fst hdecode)
    rw [decode_accepted accepts old payload hroom] at hdecode
    obtain rfl : decoded input = packet := congrArg (fun out => out.2.1) hdecode
    have hlength := accepts.length
    have hfits := accepts.fits
    have hlen : (decoded input).payload_len = read_u16_le input 6 := rfl
    refine ⟨hlength, by omega, encoded (decoded input), ?_, ?_, ?_, ?_⟩
    · exact encode_ok hfits (by rw [hlen]; omega)
    · rw [length_encoded, hlen, hlength]
    · constructor
      · intro hsame
        rw [← hsame]
        rfl
      · exact encoded_decoded accepts
    · exact fun k hk h5 => encoded_byte accepts hk h5
  · intro input old payload payload_capacity malformed
    obtain ⟨status, hstatus, hdecode⟩ :=
      @decode_rejected input payload_capacity (fun h => malformed.not_accepts h.1) old payload
    rw [hdecode]
    exact ⟨hstatus, rfl⟩

end stm32_vibe.update_protocol
