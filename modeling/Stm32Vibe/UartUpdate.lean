-- The packets that the host tool sends for one update, in the order of its
-- `run_update`, and the ACKs that it accepts.
import Stm32Vibe.UpdateSession

namespace stm32_vibe.uart_update

open little_endian update_protocol update_session

/-! ## The packets -/

def MAX_PAYLOAD : Nat := 128

/-- `Packet(command, session_id, sequence, payload)`. The tool encodes no longer payload. -/
def packet (command : UInt8) (session_id sequence : UInt32) (payload : List UInt8)
    (h : payload.length ≤ MAX_PAYLOAD) : UpdatePacket where
  command := command
  flags := 0
  payload_len := payload.length.toUInt16
  session_id := session_id
  sequence := sequence
  payload := payload
  length_payload := (UInt16.toNat_ofNat_of_lt' (Nat.lt_of_le_of_lt h (by decide))).symm

/-- `struct.pack("<II", len(binary), metadata["image_crc32"])`. -/
def beginPayload (binary : List UInt8) (image_crc32 : UInt32) : List UInt8 :=
  unpackAll [binary.length.toUInt32, image_crc32]

theorem length_beginPayload (binary : List UInt8) (image_crc32 : UInt32) :
    (beginPayload binary image_crc32).length = 8 := length_unpackAll _

def beginPacket (session_id : UInt32) (binary : List UInt8) (image_crc32 : UInt32) : UpdatePacket :=
  packet UPDATE_CMD_BEGIN session_id 0 (beginPayload binary image_crc32)
    (by rw [length_beginPayload]; decide)

/-- `binary[offset:offset + MAX_PAYLOAD]`. -/
def block (binary : List UInt8) (offset : Nat) : List UInt8 := (binary.drop offset).take MAX_PAYLOAD

def blockPacket (session_id : UInt32) (binary : List UInt8) (offset : Nat) : UpdatePacket :=
  packet UPDATE_CMD_BLOCK session_id offset.toUInt32 (block binary offset)
    (List.length_take_le _ _)

/-- A packet without a payload. -/
def bare (command : UInt8) (session_id : UInt32) : UpdatePacket :=
  packet command session_id 0 [] (Nat.zero_le _)

/-- The number of blocks of `range(0, len(binary), MAX_PAYLOAD)`. -/
def blockCount (binary : List UInt8) : Nat := (binary.length + (MAX_PAYLOAD - 1)) / MAX_PAYLOAD

def blockPackets (session_id : UInt32) (binary : List UInt8) : List UpdatePacket :=
  (List.range (blockCount binary)).map fun k => blockPacket session_id binary (MAX_PAYLOAD * k)

def run_update (binary : List UInt8) (image_crc32 session_id : UInt32) (activate : Bool) :
    List UpdatePacket :=
  [beginPacket session_id binary image_crc32] ++ blockPackets session_id binary ++
    [bare UPDATE_CMD_END session_id, bare UPDATE_CMD_VALIDATE session_id] ++
    if activate then [bare UPDATE_CMD_ACTIVATE session_id] else []

theorem length_run_update (binary : List UInt8) (image_crc32 session_id : UInt32)
    (activate : Bool) :
    (run_update binary image_crc32 session_id activate).length ≤ blockCount binary + 4 := by
  unfold run_update blockPackets
  cases activate <;> simp

/-- Without the last packet, the update activates nothing. -/
theorem run_update_quiet {binary : List UInt8} {image_crc32 session_id : UInt32}
    {packet : UpdatePacket} (h : packet ∈ run_update binary image_crc32 session_id false) :
    packet.command ≠ UPDATE_CMD_ACTIVATE := by
  simp only [run_update, blockPackets, Bool.false_eq_true, if_false, List.append_nil,
    List.mem_append, List.mem_cons, List.mem_map, List.not_mem_nil, or_false] at h
  rcases h with (rfl | ⟨k, -, rfl⟩) | rfl | rfl
  · exact (by decide : UPDATE_CMD_BEGIN ≠ UPDATE_CMD_ACTIVATE)
  · exact (by decide : UPDATE_CMD_BLOCK ≠ UPDATE_CMD_ACTIVATE)
  · exact (by decide : UPDATE_CMD_END ≠ UPDATE_CMD_ACTIVATE)
  · exact (by decide : UPDATE_CMD_VALIDATE ≠ UPDATE_CMD_ACTIVATE)

/-! ## What the session reads in them -/

theorem read_unpackAll (words : List UInt32) {k : Nat} {w : UInt32} (h : words[k]? = some w) :
    read_u32_le (unpackAll words) (4 * k) = w := by
  unfold read_u32_le
  apply readWord_of_lanes
  intro j hj
  have hbyte : (unpackAll words)[4 * k + j]? = some (lane w j) := by
    rw [getElem?_unpackAll, show (4 * k + j) / 4 = k by omega, show (4 * k + j) % 4 = j by omega, h]
    rfl
  rw [List.getD, hbyte]
  rfl

section
variable (session_id : UInt32) (binary : List UInt8) (image_crc32 : UInt32)

theorem begin_size :
    read_u32_le (beginPacket session_id binary image_crc32).payload 0 =
      binary.length.toUInt32 :=
  read_unpackAll _ (k := 0) rfl

theorem begin_crc32 :
    read_u32_le (beginPacket session_id binary image_crc32).payload 4 = image_crc32 :=
  read_unpackAll _ (k := 1) rfl

/-- The session accepts the BEGIN of every binary that the slot holds. -/
theorem begin_accepted {board : Board} (h0 : binary.length ≠ 0)
    (hfit : binary.length ≤ (APP_SLOT_SIZE board).toNat) :
    BeginAccepted board (beginPacket session_id binary image_crc32) := by
  have hlt := (APP_SLOT_SIZE board).toNat_lt
  have hsize : binary.length.toUInt32.toNat = binary.length :=
    UInt32.toNat_ofNat_of_lt' (by show _ < 2 ^ 32; omega)
  have hlen : (beginPacket session_id binary image_crc32).payload_len = 8 := by
    unfold beginPacket packet
    dsimp only
    rw [length_beginPayload]
    rfl
  refine ⟨hlen, ?_, ?_⟩
  · rw [begin_size]
    intro hzero
    rw [hzero] at hsize
    exact h0 hsize.symm
  · rw [begin_size, UInt32.le_iff_toNat_le, hsize]
    exact hfit

end

theorem length_block (binary : List UInt8) (offset : Nat) :
    (block binary offset).length = min MAX_PAYLOAD (binary.length - offset) := by
  rw [block, List.length_take, List.length_drop]

/-- A block of the binary goes on after the bytes before it. -/
theorem take_append_block (binary : List UInt8) (k : Nat) :
    binary.take (MAX_PAYLOAD * k) ++ block binary (MAX_PAYLOAD * k) =
      binary.take (MAX_PAYLOAD * (k + 1)) := by
  rw [block, Nat.mul_add, Nat.mul_one, List.take_add]

/-! ## The wire -/

/-- What the tool raises. -/
inductive ToolError where
  | UpdateError (message : String)
  | ValueError (message : String)
  | TimeoutError (message : String)
  /-- A number that `struct.pack` does not take. -/
  | StructError
  /-- A sidecar that is no JSON object has no `get`. -/
  | AttributeError
deriving DecidableEq, Repr

def STATUS_OK : UInt8 := 0

def crc32 (data : List UInt8) : UInt32 := reflected_crc.overList reflected_crc.CRC32 data

/-- The tool has the constants of the protocol under names of its own. -/
def encode_packet (packet : UpdatePacket) : Except ToolError (List UInt8) :=
  if packet.payload.length > MAX_PAYLOAD then
    .error (.ValueError "payload exceeds update protocol maximum")
  else
    let header :=
      write_u16_le UPDATE_PROTOCOL_SYNC ++
        [UPDATE_PROTOCOL_VERSION, packet.command, packet.flags, 0] ++
        write_u16_le packet.payload.length.toUInt16 ++ write_u32_le packet.session_id ++
        write_u32_le packet.sequence
    let body := header ++ packet.payload
    .ok (body ++ write_u32_le (crc32 body))

def decode_packet (data : List UInt8) : Except ToolError UpdatePacket :=
  if data.length < UPDATE_PROTOCOL_HEADER_SIZE + UPDATE_PROTOCOL_CRC_SIZE then
    .error (.UpdateError "short packet")
  else if read_u16_le data 0 ≠ UPDATE_PROTOCOL_SYNC then .error (.UpdateError "bad sync")
  else if data.getD 2 0 ≠ UPDATE_PROTOCOL_VERSION then
    .error (.UpdateError "bad protocol version")
  else
    let payload_len := read_u16_le data 6
    if payload_len.toNat > MAX_PAYLOAD then .error (.UpdateError "bad payload length")
    else if hlength : data.length ≠
        UPDATE_PROTOCOL_HEADER_SIZE + payload_len.toNat + UPDATE_PROTOCOL_CRC_SIZE then
      .error (.UpdateError "packet length mismatch")
    else
      let expected_crc := read_u32_le data (data.length - UPDATE_PROTOCOL_CRC_SIZE)
      let actual_crc := crc32 (data.take (data.length - UPDATE_PROTOCOL_CRC_SIZE))
      if actual_crc ≠ expected_crc then .error (.UpdateError "bad packet crc")
      else .ok
        { command := data.getD 3 0
          flags := data.getD 4 0
          payload_len
          session_id := read_u32_le data 8
          sequence := read_u32_le data 12
          payload := (data.drop UPDATE_PROTOCOL_HEADER_SIZE).take payload_len.toNat
          length_payload := by
            rw [List.length_take, List.length_drop]
            omega }

/-- `read_packet` of one packet on the line. It skips what has no sync, as if
the line had lost it. -/
def read_packet (data : List UInt8) : Except ToolError UpdatePacket :=
  if (read_u16_le data 6).toNat > MAX_PAYLOAD then
    .error (.UpdateError "response payload too large")
  else decode_packet data

def expect_ack (command : UInt8) (session_id sequence : UInt32) (data : List UInt8) :
    Except ToolError Unit :=
  match read_packet data with
  | .error error => .error error
  | .ok ack =>
    if ack.command ≠ UPDATE_CMD_ACK then
      .error (.UpdateError s!"expected ACK, got command {ack.command}")
    else if ack.session_id ≠ session_id then .error (.UpdateError "ACK session mismatch")
    else if ack.sequence ≠ sequence then .error (.UpdateError "ACK sequence mismatch")
    else
      match ack.payload with
      | [acked_command, status] =>
        if acked_command ≠ command then
          .error (.UpdateError
            s!"ACK command mismatch: expected {command}, got {acked_command}")
        else if status ≠ STATUS_OK then
          .error (.UpdateError
            s!"bootloader returned status {status} for command {command}")
        else .ok ()
      | _ => .error (.UpdateError "malformed ACK payload")

/-- The tool and the firmware encode a packet alike. -/
theorem encode_packet_eq {packet : UpdatePacket} (hfits : packet.payload_len.toNat ≤ 128) :
    encode_packet packet = .ok (encoded packet) := by
  have hlen : packet.payload.length.toUInt16 = packet.payload_len := by
    rw [packet.length_payload]
    exact UInt16.ofNat_toNat
  have hshort : ¬ packet.payload.length > MAX_PAYLOAD := by
    rw [packet.length_payload]
    exact Nat.not_lt.mpr hfits
  have hall : (message packet).take (16 + packet.payload_len.toNat) = message packet :=
    List.take_of_length_le (by rw [length_message])
  unfold encode_packet encoded update_protocol_crc32
  rw [if_neg hshort, hlen, hall]
  rfl

/-- The tool decodes what the firmware accepts, and to the same packet. -/
theorem decode_packet_accepted {data : List UInt8} (h : Accepts data) :
    decode_packet data = .ok (decoded data) := by
  obtain ⟨hsync, hversion, hfits, hlength, hcrc⟩ := h
  have hshort : ¬ (read_u16_le data 6).toNat > MAX_PAYLOAD := Nat.not_lt.mpr hfits
  have hlong : ¬ data.length < UPDATE_PROTOCOL_HEADER_SIZE + UPDATE_PROTOCOL_CRC_SIZE := by
    unfold UPDATE_PROTOCOL_HEADER_SIZE UPDATE_PROTOCOL_CRC_SIZE
    omega
  have htotal : data.length =
      UPDATE_PROTOCOL_HEADER_SIZE + (read_u16_le data 6).toNat + UPDATE_PROTOCOL_CRC_SIZE := by
    unfold UPDATE_PROTOCOL_HEADER_SIZE UPDATE_PROTOCOL_CRC_SIZE
    omega
  have hoffset : data.length - UPDATE_PROTOCOL_CRC_SIZE = 16 + (read_u16_le data 6).toNat := by
    unfold UPDATE_PROTOCOL_CRC_SIZE
    omega
  have hsame : crc32 (data.take (data.length - UPDATE_PROTOCOL_CRC_SIZE)) =
      read_u32_le data (data.length - UPDATE_PROTOCOL_CRC_SIZE) := by
    rw [hoffset, ← hcrc]
    rfl
  have hpayload : (data.drop 16).take (read_u16_le data 6).toNat = (decoded data).payload := by
    apply List.ext_getElem
    · simp [decoded]
      omega
    · intro index hindex hindex'
      have hlt : 16 + index < data.length := by
        simp at hindex
        omega
      rw [List.getElem_take, List.getElem_drop, ← List.getD_eq_getElem _ 0 hlt]
      simp [decoded]
  unfold decode_packet
  dsimp only
  rw [if_neg hlong, if_neg (not_not.mpr hsync), if_neg (not_not.mpr hversion),
    if_neg hshort, dif_neg (not_not.mpr htotal), if_neg (not_not.mpr hsame)]
  congr 1
  ext1
  · rfl
  · rfl
  · rfl
  · rfl
  · rfl
  · exact hpayload

/-- The tool decodes nothing else. -/
theorem decode_packet_ok {data : List UInt8} {packet : UpdatePacket}
    (h : decode_packet data = .ok packet) : Accepts data := by
  unfold decode_packet at h
  dsimp only at h
  split_ifs at h with hshort hsync hversion hfits hlength hcrc
  simp only [not_not] at hsync hversion hlength hcrc
  unfold UPDATE_PROTOCOL_HEADER_SIZE UPDATE_PROTOCOL_CRC_SIZE at hlength
  have hoffset : data.length - UPDATE_PROTOCOL_CRC_SIZE = 16 + (read_u16_le data 6).toNat := by
    unfold UPDATE_PROTOCOL_CRC_SIZE
    omega
  rw [hoffset] at hcrc
  exact ⟨hsync, hversion, Nat.not_lt.mp hfits, by omega, hcrc⟩

theorem read_packet_accepted {data : List UInt8} (h : Accepts data) :
    read_packet data = .ok (decoded data) := by
  have hshort : ¬ (read_u16_le data 6).toNat > MAX_PAYLOAD := Nat.not_lt.mpr h.fits
  unfold read_packet
  rw [if_neg hshort, decode_packet_accepted h]

theorem read_packet_ok {data : List UInt8} {packet : UpdatePacket}
    (h : read_packet data = .ok packet) : Accepts data := by
  unfold read_packet at h
  split at h
  · cases h
  · exact decode_packet_ok h

/-- The reply that the tool takes for the ACK of a packet. -/
structure AckOk (command : UInt8) (session_id sequence : UInt32) (ack : UpdatePacket) : Prop where
  is_ack : ack.command = UPDATE_CMD_ACK
  same_session : ack.session_id = session_id
  same_sequence : ack.sequence = sequence
  payload : ack.payload = [command, STATUS_OK]

theorem expect_ack_ok_iff (command : UInt8) (session_id sequence : UInt32) (data : List UInt8) :
    expect_ack command session_id sequence data = .ok () ↔
      Accepts data ∧ AckOk command session_id sequence (decoded data) := by
  constructor
  · intro h
    unfold expect_ack at h
    split at h
    · cases h
    · rename_i ack hread
      have accepts := read_packet_ok hread
      rw [read_packet_accepted accepts] at hread
      obtain rfl : decoded data = ack := Except.ok.inj hread
      split_ifs at h with hcommand hsession hsequence
      simp only [not_not] at hcommand hsession hsequence
      split at h
      · rename_i acked_command status hpayload
        split_ifs at h with hacked hstatus
        simp only [not_not] at hacked hstatus
        rw [hacked, hstatus] at hpayload
        exact ⟨accepts, hcommand, hsession, hsequence, hpayload⟩
      · cases h
  · rintro ⟨accepts, hcommand, hsession, hsequence, hpayload⟩
    unfold expect_ack
    rw [read_packet_accepted accepts]
    simp [hcommand, hsession, hsequence, hpayload]

end stm32_vibe.uart_update
