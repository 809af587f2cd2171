-- The packets of the host tool with the integers and the format strings of the
-- tool itself, and that its codec and the firmware's are one. Only a number
-- that does not fit its field tells the tool's packets from the firmware's.
import Stm32Vibe.Lib.PackedFields
import Stm32Vibe.UartUpdate

namespace stm32_vibe.host_packet

open little_endian packed_fields update_protocol uart_update

/-! ## The codec of the tool -/

def SYNC : Int := 0x5544
def VERSION : Int := 1
def HEADER_SIZE : Nat := 16
def CRC_SIZE : Nat := 4

/-- The numbers are unbounded, and may be negative. -/
structure Packet where
  command : Int
  flags : Int
  session_id : Int
  sequence : Int
  payload : List UInt8
deriving DecidableEq, Repr

/-- `"<HBBBBHII"`. -/
def HEADER_FORMAT : List Code := [.H, .B, .B, .B, .B, .H, .I, .I]

def crc32 (data : List UInt8) : Int := ((uart_update.crc32 data).toNat : Int)

def struct_pack (format : List Code) (values : List Int) : Except ToolError (List UInt8) :=
  match packFields format values with
  | none => .error .StructError
  | some bytes => .ok bytes

def struct_unpack (format : List Code) (bytes : List UInt8) : Except ToolError (List Int) :=
  match unpackFields format bytes with
  | none => .error .StructError
  | some values => .ok values

def encode_packet (packet : Packet) : Except ToolError (List UInt8) :=
  if packet.payload.length > MAX_PAYLOAD then
    .error (.ValueError "payload exceeds update protocol maximum")
  else do
    let header ← struct_pack HEADER_FORMAT
      [SYNC, VERSION, packet.command, packet.flags, 0, (packet.payload.length : Int),
        packet.session_id, packet.sequence]
    let body := header ++ packet.payload
    let crc ← struct_pack [.I] [crc32 body]
    return body ++ crc

def decode_packet (data : List UInt8) : Except ToolError Packet :=
  if data.length < HEADER_SIZE + CRC_SIZE then .error (.UpdateError "short packet")
  else do
    let fields ← struct_unpack HEADER_FORMAT (data.take HEADER_SIZE)
    match fields with
    | [sync, version, command, flags, _reserved, payload_len, session_id, sequence] =>
      if sync ≠ SYNC then .error (.UpdateError "bad sync")
      else if version ≠ VERSION then .error (.UpdateError "bad protocol version")
      else if payload_len > (MAX_PAYLOAD : Int) then .error (.UpdateError "bad payload length")
      else
        let expected_len := (HEADER_SIZE : Int) + payload_len + (CRC_SIZE : Int)
        if (data.length : Int) ≠ expected_len then .error (.UpdateError "packet length mismatch")
        else do
          let words ← struct_unpack [.I] (data.drop (data.length - CRC_SIZE))
          let expected_crc := words.getD 0 0
          let actual_crc := crc32 (data.take (data.length - CRC_SIZE))
          if actual_crc ≠ expected_crc then .error (.UpdateError "bad packet crc")
          else .ok { command, flags, session_id, sequence,
                     payload := (data.drop HEADER_SIZE).take payload_len.toNat }
    | _ => .error .StructError

/-! ## Against the fields of the firmware -/

/-- A packet of the firmware as the tool holds it. -/
def ofFirmware (packet : UpdatePacket) : Packet where
  command := (packet.command.toNat : Int)
  flags := (packet.flags.toNat : Int)
  session_id := (packet.session_id.toNat : Int)
  sequence := (packet.sequence.toNat : Int)
  payload := packet.payload

/-- The numbers of a packet fit their fields, and its payload the protocol. -/
structure InRange (packet : Packet) : Prop where
  command : Fits .B packet.command
  flags : Fits .B packet.flags
  session_id : Fits .I packet.session_id
  sequence : Fits .I packet.sequence
  payload : packet.payload.length ≤ MAX_PAYLOAD

/-- The packet that the firmware holds for one of the tool. -/
def Packet.firmware (packet : Packet) (h : packet.payload.length ≤ MAX_PAYLOAD) : UpdatePacket :=
  { uart_update.packet packet.command.toNat.toUInt8 packet.session_id.toNat.toUInt32
      packet.sequence.toNat.toUInt32 packet.payload h with
    flags := packet.flags.toNat.toUInt8 }

theorem header_packed (packet : UpdatePacket) :
    packFields HEADER_FORMAT
      [SYNC, VERSION, packet.command.toNat, packet.flags.toNat, 0, packet.payload_len.toNat,
        packet.session_id.toNat, packet.sequence.toNat] =
    some (write_u16_le UPDATE_PROTOCOL_SYNC ++
      [UPDATE_PROTOCOL_VERSION, packet.command, packet.flags, 0] ++
      write_u16_le packet.payload_len ++ write_u32_le packet.session_id ++
      write_u32_le packet.sequence) := by
  have hsync : SYNC = (UPDATE_PROTOCOL_SYNC.toNat : Int) := rfl
  have hversion : VERSION = (UPDATE_PROTOCOL_VERSION.toNat : Int) := rfl
  have hzero : (0 : Int) = ((0 : UInt8).toNat : Int) := rfl
  unfold HEADER_FORMAT
  rw [hsync, hversion, hzero, packFields_cons (fits_half _), packFields_cons (fits_byte _),
    packFields_cons (fits_byte _), packFields_cons (fits_byte _), packFields_cons (fits_byte _),
    packFields_cons (fits_half _), packFields_cons (fits_word _), packFields_cons (fits_word _),
    packFields_nil]
  simp only [Option.map_some, Int.toNat_natCast, Code.width, bytesOf_byte, bytesOf_half,
    bytesOf_word]
  simp [write_u16_le, write_u32_le]

theorem struct_pack_some {format : List Code} {values : List Int} {bytes : List UInt8}
    (h : packFields format values = some bytes) : struct_pack format values = .ok bytes := by
  rw [struct_pack, h]

theorem struct_unpack_some {format : List Code} {bytes : List UInt8} {values : List Int}
    (h : unpackFields format bytes = some values) : struct_unpack format bytes = .ok values := by
  rw [struct_unpack, h]

theorem word_packed (w : UInt32) : packFields [.I] [(w.toNat : Int)] = some (write_u32_le w) := by
  rw [packFields_cons (fits_word w), packFields_nil, Int.toNat_natCast, Option.map_some,
    List.append_nil, Code.width, bytesOf_word]
  rfl

theorem crc_packed (data : List UInt8) :
    struct_pack [.I] [crc32 data] = .ok (write_u32_le (uart_update.crc32 data)) :=
  struct_pack_some (word_packed (uart_update.crc32 data))

theorem ok_bind {α β : Type} (x : α) (f : α → Except ToolError β) :
    ((Except.ok x : Except ToolError α) >>= f) = f x := rfl

/-- The encoder puts the payload and the CRC behind a header that packs. -/
theorem encode_packet_of_header {packet : Packet} {header : List UInt8}
    (hfits : packet.payload.length ≤ MAX_PAYLOAD)
    (hheader : packFields HEADER_FORMAT
      [SYNC, VERSION, packet.command, packet.flags, 0, (packet.payload.length : Int),
        packet.session_id, packet.sequence] = some header) :
    encode_packet packet = .ok (header ++ packet.payload ++
      write_u32_le (uart_update.crc32 (header ++ packet.payload))) := by
  unfold encode_packet
  rw [if_neg (Nat.not_lt.mpr hfits), struct_pack_some hheader, ok_bind]
  simp only [crc_packed, ok_bind]
  rfl

/-- On the packets of the firmware the two models of the tool's encoder agree. -/
theorem encode_packet_ofFirmware (packet : UpdatePacket) :
    encode_packet (ofFirmware packet) = uart_update.encode_packet packet := by
  by_cases hlong : packet.payload.length > MAX_PAYLOAD
  · have hlong' : (ofFirmware packet).payload.length > MAX_PAYLOAD := hlong
    unfold encode_packet uart_update.encode_packet
    rw [if_pos hlong, if_pos hlong']
  · have hlen : packet.payload.length.toUInt16 = packet.payload_len := by
      rw [packet.length_payload]
      exact UInt16.ofNat_toNat
    have hheader := header_packed packet
    rw [← packet.length_payload] at hheader
    unfold uart_update.encode_packet
    rw [if_neg hlong, hlen, @encode_packet_of_header (ofFirmware packet) _ (Nat.not_lt.mp hlong)
      hheader]
    rfl

theorem bytes_at (data : List UInt8) {offset count : Nat} (h : offset + count ≤ data.length) :
    (data.drop offset).take count =
      (List.range count).map fun index => data.getD (offset + index) 0 := by
  apply List.ext_getElem
  · simp
    omega
  · intro index hindex hindex'
    have hlt : offset + index < data.length := by
      simp at hindex
      omega
    simp [hlt]

theorem half_at (data : List UInt8) {offset : Nat} (h : offset + 2 ≤ data.length) :
    valueOf ((data.drop offset).take 2) = (read_u16_le data offset).toNat := by
  rw [bytes_at data h]
  exact valueOf_half _ _

theorem word_at (data : List UInt8) {offset : Nat} (h : offset + 4 ≤ data.length) :
    valueOf ((data.drop offset).take 4) = (read_u32_le data offset).toNat := by
  rw [bytes_at data h]
  exact valueOf_word _ _ _ _

theorem byte_at (data : List UInt8) {offset : Nat} (h : offset + 1 ≤ data.length) :
    valueOf ((data.drop offset).take 1) = (data.getD offset 0).toNat := by
  rw [bytes_at data h]
  exact valueOf_byte _

/-- The fields of the header, where the firmware reads them. -/
theorem header_unpacked {data : List UInt8} (h : 16 ≤ data.length) :
    unpackFields HEADER_FORMAT (data.take HEADER_SIZE) =
      some [((read_u16_le data 0).toNat : Int), ((data.getD 2 0).toNat : Int),
        ((data.getD 3 0).toNat : Int), ((data.getD 4 0).toNat : Int),
        ((data.getD 5 0).toNat : Int), ((read_u16_le data 6).toNat : Int),
        ((read_u32_le data 8).toNat : Int), ((read_u32_le data 12).toNat : Int)] := by
  have hlength : (data.take HEADER_SIZE).length = size HEADER_FORMAT := by
    rw [List.length_take]
    exact min_eq_left h
  have hfield : ∀ offset count, offset + count ≤ 16 →
      ((data.take HEADER_SIZE).drop offset).take count = (data.drop offset).take count := by
    intro offset count hin
    rw [List.drop_take, List.take_take, min_eq_left]
    show count ≤ 16 - offset
    omega
  unfold unpackFields
  rw [if_pos hlength, ← List.drop_zero (l := data.take HEADER_SIZE)]
  unfold HEADER_FORMAT
  simp only [fieldsOf_drop, Code.width, Nat.reduceAdd]
  rw [hfield 0 2 (by omega), hfield 2 1 (by omega), hfield 3 1 (by omega), hfield 4 1 (by omega),
    hfield 5 1 (by omega), hfield 6 2 (by omega), hfield 8 4 (by omega), hfield 12 4 (by omega),
    half_at data (by omega), byte_at data (by omega), byte_at data (by omega),
    byte_at data (by omega), byte_at data (by omega), half_at data (by omega),
    word_at data (by omega), word_at data (by omega), fieldsOf]

theorem crc_unpacked {data : List UInt8} (h : 4 ≤ data.length) :
    struct_unpack [.I] (data.drop (data.length - CRC_SIZE)) =
      .ok [((read_u32_le data (data.length - CRC_SIZE)).toNat : Int)] := by
  have hcrc : data.length - CRC_SIZE + 4 = data.length := by
    unfold CRC_SIZE
    omega
  apply struct_unpack_some
  unfold unpackFields
  rw [if_pos (by rw [List.length_drop]; show _ = 4; omega), fieldsOf, Code.width,
    word_at data (by omega), fieldsOf]

theorem cast_half {a b : UInt16} : (a.toNat : Int) = (b.toNat : Int) ↔ a = b := by
  rw [Int.natCast_inj, UInt16.toNat_inj]

theorem cast_byte {a b : UInt8} : (a.toNat : Int) = (b.toNat : Int) ↔ a = b := by
  rw [Int.natCast_inj, UInt8.toNat_inj]

theorem cast_word {a b : UInt32} : (a.toNat : Int) = (b.toNat : Int) ↔ a = b := by
  rw [Int.natCast_inj, UInt32.toNat_inj]

/-- The two models of the tool's decoder agree, in their errors too. -/
theorem decode_packet_eq (data : List UInt8) :
    decode_packet data = (uart_update.decode_packet data).map ofFirmware := by
  unfold decode_packet uart_update.decode_packet
  by_cases hshort : data.length < UPDATE_PROTOCOL_HEADER_SIZE + UPDATE_PROTOCOL_CRC_SIZE
  · have hshort' : data.length < HEADER_SIZE + CRC_SIZE := hshort
    rw [if_pos hshort, if_pos hshort']
    rfl
  have hshort' : ¬ data.length < HEADER_SIZE + CRC_SIZE := hshort
  have hlong : 20 ≤ data.length := Nat.not_lt.mp hshort
  rw [if_neg hshort, if_neg hshort', struct_unpack_some (header_unpacked (by omega)), ok_bind]
  dsimp only
  have hsync : ((read_u16_le data 0).toNat : Int) ≠ SYNC ↔
      read_u16_le data 0 ≠ UPDATE_PROTOCOL_SYNC := not_congr (@cast_half _ UPDATE_PROTOCOL_SYNC)
  have hversion : ((data.getD 2 0).toNat : Int) ≠ VERSION ↔
      data.getD 2 0 ≠ UPDATE_PROTOCOL_VERSION := not_congr (@cast_byte _ UPDATE_PROTOCOL_VERSION)
  have hfits : ((read_u16_le data 6).toNat : Int) > (MAX_PAYLOAD : Int) ↔
      (read_u16_le data 6).toNat > MAX_PAYLOAD := Int.ofNat_lt
  have hlength : (data.length : Int) ≠
      (HEADER_SIZE : Int) + ((read_u16_le data 6).toNat : Int) + (CRC_SIZE : Int) ↔
      data.length ≠ UPDATE_PROTOCOL_HEADER_SIZE + (read_u16_le data 6).toNat +
        UPDATE_PROTOCOL_CRC_SIZE := by
    unfold HEADER_SIZE CRC_SIZE UPDATE_PROTOCOL_HEADER_SIZE UPDATE_PROTOCOL_CRC_SIZE
    omega
  have hcrc : crc32 (data.take (data.length - CRC_SIZE)) ≠
        ((read_u32_le data (data.length - CRC_SIZE)).toNat : Int) ↔
      uart_update.crc32 (data.take (data.length - UPDATE_PROTOCOL_CRC_SIZE)) ≠
        read_u32_le data (data.length - UPDATE_PROTOCOL_CRC_SIZE) :=
    not_congr (@cast_word (uart_update.crc32 (data.take (data.length - CRC_SIZE))) _)
  simp only [hsync, hversion, hfits, hlength, crc_unpacked (by omega : 4 ≤ data.length), ok_bind,
    List.getD_cons_zero, hcrc]
  split_ifs
  · rfl
  · rfl
  · rfl
  · rfl
  · rfl
  · rfl

/-! ## One codec -/

theorem byte_of_fits {value : Int} (h : Fits .B value) :
    (value.toNat.toUInt8.toNat : Int) = value := by
  have hlt : value < 256 ^ 1 := h.2
  rw [Nat.toUInt8, UInt8.toNat_ofNat']
  have := h.1
  omega

theorem word_of_fits {value : Int} (h : Fits .I value) :
    (value.toNat.toUInt32.toNat : Int) = value := by
  have hlt : value < 256 ^ 4 := h.2
  rw [Nat.toUInt32, UInt32.toNat_ofNat']
  have := h.1
  omega

/-- Nothing is lost between a packet in range and the firmware's. -/
theorem ofFirmware_firmware {packet : Packet} (h : InRange packet) :
    ofFirmware (packet.firmware h.payload) = packet := by
  obtain ⟨command, flags, session_id, sequence, payload⟩ := packet
  show Packet.mk _ _ _ _ _ = Packet.mk _ _ _ _ _
  congr 1
  · exact byte_of_fits h.command
  · exact byte_of_fits h.flags
  · exact word_of_fits h.session_id
  · exact word_of_fits h.sequence

theorem firmware_payload_len {packet : Packet} (h : packet.payload.length ≤ MAX_PAYLOAD) :
    (packet.firmware h).payload_len.toNat = packet.payload.length :=
  (packet.firmware h).length_payload.symm

/-- A packet in range has the bytes that the firmware writes for it. -/
theorem encode_packet_inRange {packet : Packet} (h : InRange packet) :
    encode_packet packet = .ok (encoded (packet.firmware h.payload)) := by
  have hfits : (packet.firmware h.payload).payload_len.toNat ≤ 128 := by
    rw [firmware_payload_len]
    exact h.payload
  have hsame := encode_packet_ofFirmware (packet.firmware h.payload)
  rw [ofFirmware_firmware h, encode_packet_eq hfits] at hsame
  exact hsame

/-- A header that is packed has its numbers in range. -/
theorem inRange_of_packed {packet : Packet} {header : List UInt8}
    (hfits : packet.payload.length ≤ MAX_PAYLOAD)
    (h : packFields HEADER_FORMAT
      [SYNC, VERSION, packet.command, packet.flags, 0, (packet.payload.length : Int),
        packet.session_id, packet.sequence] = some header) : InRange packet := by
  obtain ⟨-, _, hrest⟩ := packFields_fits h
  obtain ⟨-, _, hrest⟩ := packFields_fits hrest
  obtain ⟨hcommand, _, hrest⟩ := packFields_fits hrest
  obtain ⟨hflags, _, hrest⟩ := packFields_fits hrest
  obtain ⟨-, _, hrest⟩ := packFields_fits hrest
  obtain ⟨-, _, hrest⟩ := packFields_fits hrest
  obtain ⟨hsession, _, hrest⟩ := packFields_fits hrest
  obtain ⟨hsequence, _, -⟩ := packFields_fits hrest
  exact ⟨hcommand, hflags, hsession, hsequence, hfits⟩

/-- A number out of range raises `struct.error`, with a payload that fits. -/
theorem encode_packet_raises {packet : Packet} (hfits : packet.payload.length ≤ MAX_PAYLOAD)
    (h : ¬ InRange packet) : encode_packet packet = .error .StructError := by
  unfold encode_packet
  rw [if_neg (Nat.not_lt.mpr hfits)]
  cases hheader : packFields HEADER_FORMAT
      [SYNC, VERSION, packet.command, packet.flags, 0, (packet.payload.length : Int),
        packet.session_id, packet.sequence] with
  | none =>
    rw [struct_pack, hheader]
    rfl
  | some header => exact absurd (inRange_of_packed hfits hheader) h

/-- The tool decodes exactly what the firmware accepts into 128 bytes. -/
theorem decode_packet_ok_iff (data : List UInt8) (decoded_packet : Packet) :
    decode_packet data = .ok decoded_packet ↔
      Accepts data ∧ decoded_packet = ofFirmware (decoded data) := by
  rw [decode_packet_eq]
  constructor
  · intro h
    cases hdecode : uart_update.decode_packet data with
    | error error =>
      rw [hdecode] at h
      cases h
    | ok packet =>
      have accepts := decode_packet_ok hdecode
      rw [decode_packet_accepted accepts] at h
      exact ⟨accepts, (Except.ok.inj h).symm⟩
  · rintro ⟨accepts, rfl⟩
    rw [decode_packet_accepted accepts]
    rfl

/-- The tool and the firmware have one codec: they write the same bytes for every
packet in range, and accept the same byte strings with the same fields. -/
theorem codecs_agree :
    (∀ (packet : Packet) (h : InRange packet) (output_capacity : Nat),
      20 + packet.payload.length ≤ output_capacity →
        ∃ bytes, update_protocol_encode (packet.firmware h.payload) output_capacity = .ok bytes ∧
          encode_packet packet = .ok bytes) ∧
    ∀ (data : List UInt8) (packet : UpdatePacket) (payload : Memory),
      let out := update_protocol_decode data packet payload 128
      ((∃ decoded_packet, decode_packet data = .ok decoded_packet) ↔ out.1 = .Ok) ∧
        ∀ decoded_packet, decode_packet data = .ok decoded_packet →
          decoded_packet = ofFirmware out.2.1 := by
  constructor
  · intro packet h output_capacity hroom
    have hlen := firmware_payload_len h.payload
    have hfits : (packet.firmware h.payload).payload_len.toNat ≤ 128 := by
      rw [hlen]
      exact h.payload
    refine ⟨_, encode_ok hfits ?_, encode_packet_inRange h⟩
    rw [hlen]
    exact hroom
  · intro data packet payload out
    constructor
    · rw [decode_ok_iff]
      constructor
      · rintro ⟨decoded_packet, hdecode⟩
        obtain ⟨accepts, -⟩ := (decode_packet_ok_iff data decoded_packet).mp hdecode
        exact ⟨accepts, accepts.fits⟩
      · rintro ⟨accepts, -⟩
        exact ⟨_, (decode_packet_ok_iff data _).mpr ⟨accepts, rfl⟩⟩
    · intro decoded_packet hdecode
      obtain ⟨accepts, rfl⟩ := (decode_packet_ok_iff data decoded_packet).mp hdecode
      have haccepted := decode_accepted accepts packet payload accepts.fits
      show _ = ofFirmware (update_protocol_decode data packet payload 128).2.1
      rw [haccepted]

/-- The packet of the tool's own round-trip test. -/
theorem codecs_agree_block :
    let packet : Packet := ⟨4, 0, 0x11223344, 128, [97, 98, 99]⟩
    InRange packet ∧ ∃ bytes, encode_packet packet = .ok bytes ∧
      ∃ decoded_packet, decode_packet bytes = .ok decoded_packet := by
  intro packet
  have inRange : InRange packet := ⟨by decide, by decide, by decide, by decide, by decide⟩
  obtain ⟨bytes, hencode, htool⟩ := codecs_agree.1 packet inRange 148 (by decide)
  have accepts : Accepts bytes := by
    obtain ⟨hfits, rfl⟩ := encode_inv hencode
    exact encoded_accepts hfits
  refine ⟨inRange, bytes, htool, ?_⟩
  exact (codecs_agree.2 bytes emptyPacket (fun _ => 0)).1.mpr
    ((decode_ok_iff bytes _ _ 128).mpr ⟨accepts, accepts.fits⟩)

end stm32_vibe.host_packet
