-- The update tools from their arguments to their exit code: the check of the
-- artifacts, the request for the update mode, the wait and the packets. Both tools,
-- for the UART and for CAN, go through the same calls on their ports.
import Stm32Vibe.HostPacket
import Stm32Vibe.HostPort
import Stm32Vibe.ImageArtifacts

namespace stm32_vibe.update_tool

open little_endian code_points packed_fields update_protocol update_session update_loop
  image_artifacts
open host_port hiding wait_for_bootloader
open uart_update hiding expect_ack read_packet

/-! ## The numbers that are packed -/

/-- The number fits the format `I` of `struct.pack`. -/
def IsWord (value : Int) : Prop := 0 ≤ value ∧ value ≤ 0xFFFFFFFF

instance (value : Int) : Decidable (IsWord value) := inferInstanceAs (Decidable (_ ∧ _))

def pack_word (value : Int) : Except ToolError UInt32 :=
  if IsWord value then .ok value.toNat.toUInt32 else .error .StructError

/-- A value of the sidecar in this format. A bool is an integer to Python, a float is none. -/
def pack_value (value : Json) : Except ToolError UInt32 :=
  match value with
  | .int value => pack_word value
  | .bool value => .ok (if value then 1 else 0)
  | _ => .error .StructError

theorem isWord_iff (value : Int) : IsWord value ↔ Fits .I value := by
  have hmax : (256 : Int) ^ Code.I.width = 4294967296 := by norm_num [Code.width]
  unfold IsWord Fits
  rw [hmax]
  omega

theorem isWord_length (bytes : List UInt8) :
    IsWord (bytes.length : Int) ↔ bytes.length < 2 ^ 32 := by
  unfold IsWord
  omega

theorem pack_word_ok {value : Int} (h : IsWord value) :
    pack_word value = .ok value.toNat.toUInt32 := if_pos h

theorem pack_word_toNat (word : UInt32) : pack_word word.toNat = .ok word := by
  rw [pack_word_ok ((isWord_iff _).mpr (fits_word word)), Int.toNat_natCast]
  exact congrArg Except.ok UInt32.ofNat_toNat

/-- Every packet of the tool carries the session id. It is encoded with the word of the
id, or it raises. -/
theorem encode_session {packet : UpdatePacket} (hfits : packet.payload_len.toNat ≤ 128)
    (session_id : Int) :
    host_packet.encode_packet { host_packet.ofFirmware packet with session_id } =
      (pack_word session_id).map fun word => encoded { packet with session_id := word } := by
  unfold pack_word
  by_cases h : IsWord session_id
  · have hword := host_packet.word_of_fits ((isWord_iff _).mp h)
    have hencode := host_packet.encode_packet_ofFirmware
      { packet with session_id := session_id.toNat.toUInt32 }
    rw [encode_packet_eq (by exact hfits)] at hencode
    rw [if_pos h, Except.map, ← hencode, host_packet.ofFirmware, host_packet.ofFirmware, hword]
  · rw [if_neg h, Except.map]
    refine host_packet.encode_packet_raises ?_ fun hrange => h ((isWord_iff _).mpr hrange.session_id)
    show packet.payload.length ≤ MAX_PAYLOAD
    rw [packet.length_payload]
    exact hfits

/-! ## The calls -/

section
variable {σ : Type} (answer : List UInt8 → σ → List UInt8 × σ)

def send_and_ack (packet : UpdatePacket) (port : Port) (device : σ) : Waited σ :=
  match encode_packet packet with
  | .error error => ⟨.error error, port, device⟩
  | .ok encoded =>
    let answered := answer encoded device
    let out := expect_ack packet.command packet.session_id packet.sequence (port ++ answered.1)
    ⟨out.1, out.2, answered.2⟩

def enterPacket (session_id sequence : UInt32) : UpdatePacket :=
  packet UPDATE_CMD_ENTER_UPDATE session_id sequence [] (Nat.zero_le _)

/-- What `request_update_mode` returns or raises, the port, and the device behind it. -/
structure Requested (σ : Type) where
  result : Except ToolError Bool
  port : Port
  device : σ

/-- The loop of `request_update_mode`, with `left` retries to go. -/
def request_loop (session_id : UInt32) : Nat → UInt32 → Port → σ → Requested σ
  | 0, _, port, device => ⟨.ok false, port, device⟩
  | left + 1, sequence, port, device =>
    match encode_packet (enterPacket session_id sequence) with
    | .error error => ⟨.error error, port, device⟩
    | .ok encoded =>
      let answered := answer encoded device
      match expect_ack UPDATE_CMD_ENTER_UPDATE session_id sequence (port ++ answered.1) with
      | (.ok (), port) => ⟨.ok true, port, answered.2⟩
      | (.error error, port) =>
        if ToolError.caught error then
          request_loop session_id left (sequence + 1) port answered.2
        else ⟨.error error, port, answered.2⟩

/-- The first packet raises if the session id is no word. -/
def request_update_mode (session_id : Int) (retries : Nat) (port : Port) (device : σ) :
    Requested σ :=
  match pack_word session_id with
  | .ok word => request_loop answer word retries 0 port device
  | .error error => if retries = 0 then ⟨.ok false, port, device⟩ else ⟨.error error, port, device⟩

/-- `wait_for_bootloader`. Without a turn no packet is encoded. -/
def wait_for_bootloader (session_id : Int) (turns : Nat) (port : Port) (device : σ) : Waited σ :=
  match pack_word session_id with
  | .ok word => host_port.wait_for_bootloader answer word turns port device
  | .error error =>
    if turns = 0 then host_port.wait_for_bootloader answer 0 0 port device
    else ⟨.error error, port, device⟩

/-- The calls of `send_and_ack` in `run_update`. The first that raises ends them. -/
def send_all : List UpdatePacket → Port → σ → Waited σ
  | [], port, device => ⟨.ok (), port, device⟩
  | packet :: packets, port, device =>
    let sent := send_and_ack answer packet port device
    match sent.result with
    | .error error => ⟨.error error, sent.port, sent.device⟩
    | .ok () => send_all packets sent.port sent.device

/-- The words of BEGIN: the CRC in its payload after the size, and the session id. -/
def begin_words (binary : List UInt8) (image_crc32 : Json) (session_id : Int) :
    Except ToolError (UInt32 × UInt32) := do
  let _ ← pack_word binary.length
  let crc ← pack_value image_crc32
  let word ← pack_word session_id
  return (crc, word)

def run_update (binary : List UInt8) (image_crc32 : Json) (session_id : Int) (activate : Bool)
    (port : Port) (device : σ) : Waited σ :=
  match begin_words binary image_crc32 session_id with
  | .ok (crc, word) =>
    send_all answer (uart_update.run_update binary crc word activate) port device
  | .error error => ⟨.error error, port, device⟩

/-- The arguments that decide what is sent. `turns` is how often the wait probes
before its deadline. -/
structure Arguments where
  session_id : Int
  turns : Nat
  app_name : Option Text
  board_name : Option Text
  no_activate : Bool
  no_discover : Bool
  no_app_reset : Bool
deriving DecidableEq, Repr

/-- The session id in its field. -/
def Arguments.word (args : Arguments) : UInt32 := args.session_id.toNat.toUInt32

/-- The exit code. What `except` does not list is raised. -/
def exit_code : Except ToolError Unit → Except ToolError Nat
  | .ok () => .ok 0
  | .error .StructError => .error .StructError
  | .error .AttributeError => .error .AttributeError
  | .error _ => .ok 1

def REQUEST_RETRIES : Nat := 5

/-- `main` between the opened port and its end. `reset_input_buffer` has emptied the port. -/
def session (args : Arguments) (binary : List UInt8) (image_crc32 : Json) (device : σ) :
    Except ToolError Unit × σ :=
  let requested : Requested σ :=
    if args.no_discover ∨ args.no_app_reset then ⟨.ok false, [], device⟩
    else request_update_mode answer args.session_id REQUEST_RETRIES [] device
  match requested.result with
  | .error error => (.error error, requested.device)
  | .ok _ =>
    let waited : Waited σ :=
      if args.no_discover then ⟨.ok (), requested.port, requested.device⟩
      else wait_for_bootloader answer args.session_id args.turns requested.port requested.device
    match waited.result with
    | .error error => (.error error, waited.device)
    | .ok () =>
      let done := run_update answer binary image_crc32 args.session_id (!args.no_activate)
        waited.port waited.device
      (done.result, done.device)

/-- `metadata["image_crc32"]`. After the check the sidecar has it. -/
def crcMember (metadata : Json) : Json :=
  match metadata with
  | .object members => get members "image_crc32"
  | _ => .null

/-- `main` of `uart_update.py` and of `can_update.py`, once they have read the binary
and its sidecar. -/
def main (args : Arguments) (binary : List UInt8) (metadata : Json) (device : σ) :
    Except ToolError Nat × σ :=
  match validate_artifacts binary metadata args.app_name args.board_name with
  | .error error => (exit_code (.error error), device)
  | .ok () =>
    let out := session answer args binary (crcMember metadata) device
    (exit_code out.1, out.2)

end

/-! ## A device that answers -/

section
variable {σ : Type} {answer : List UInt8 → σ → List UInt8 × σ}

/-- The device answers a packet with its ACK and OK, and is `next` after it. -/
def Serves (answer : List UInt8 → σ → List UInt8 × σ) (packet : UpdatePacket)
    (device next : σ) : Prop :=
  answer (encoded packet) device =
    (encoded (ackPacket packet.command .Ok packet.session_id packet.sequence), next)

/-- The same for one packet after the other. -/
def ServesAll (answer : List UInt8 → σ → List UInt8 × σ) : List UpdatePacket → σ → σ → Prop
  | [], device, last => device = last
  | packet :: packets, device, last =>
    ∃ next, Serves answer packet device next ∧ ServesAll answer packets next last

theorem ServesAll.append {packets more : List UpdatePacket} {device mid last : σ}
    (h : ServesAll answer packets device mid) (hmore : ServesAll answer more mid last) :
    ServesAll answer (packets ++ more) device last := by
  induction packets generalizing device with
  | nil =>
    cases h
    exact hmore
  | cons packet packets ih =>
    obtain ⟨next, hfirst, hrest⟩ := h
    exact ⟨next, hfirst, ih hrest⟩

theorem expect_served (packet : UpdatePacket) :
    expect_ack packet.command packet.session_id packet.sequence
        (encoded (ackPacket packet.command .Ok packet.session_id packet.sequence)) =
      (.ok (), []) := by
  have hfits : (ackPacket packet.command .Ok packet.session_id packet.sequence).payload_len.toNat
      ≤ 128 := by
    show 2 ≤ 128
    omega
  have hread := expect_ack_encoded hfits [] packet.command packet.session_id packet.sequence
  rw [List.append_nil] at hread
  rw [hread]
  simp [check_ack, ackPacket, STATUS_OK, UpdateStatus.code]

theorem send_and_ack_served {packet : UpdatePacket} (hfits : packet.payload_len.toNat ≤ 128)
    {device next : σ} (h : Serves answer packet device next) :
    send_and_ack answer packet [] device = ⟨.ok (), [], next⟩ := by
  unfold send_and_ack
  rw [encode_packet_eq hfits]
  dsimp only
  rw [h, List.nil_append, expect_served]

theorem send_all_served {packets : List UpdatePacket}
    (hfits : ∀ packet ∈ packets, packet.payload_len.toNat ≤ 128) {device last : σ}
    (h : ServesAll answer packets device last) :
    send_all answer packets [] device = ⟨.ok (), [], last⟩ := by
  induction packets generalizing device with
  | nil =>
    cases h
    rfl
  | cons packet packets ih =>
    obtain ⟨next, hfirst, hrest⟩ := h
    unfold send_all
    rw [send_and_ack_served (hfits packet (List.mem_cons_self ..)) hfirst]
    exact ih (fun p hp => hfits p (List.mem_cons_of_mem _ hp)) hrest

theorem request_served {session_id : Int} (hid : IsWord session_id) {device next : σ}
    (retries : Nat) (h : Serves answer (enterPacket session_id.toNat.toUInt32 0) device next) :
    request_update_mode answer session_id (retries + 1) [] device = ⟨.ok true, [], next⟩ := by
  have hfits : (enterPacket session_id.toNat.toUInt32 0).payload_len.toNat ≤ 128 := Nat.zero_le _
  unfold request_update_mode
  rw [pack_word_ok hid]
  dsimp only
  unfold request_loop
  rw [encode_packet_eq hfits]
  dsimp only
  rw [h, List.nil_append,
    show expect_ack UPDATE_CMD_ENTER_UPDATE session_id.toNat.toUInt32 0 _ = (.ok (), []) from
      expect_served (enterPacket session_id.toNat.toUInt32 0)]

theorem wait_served {session_id : Int} (hid : IsWord session_id) {device next : σ} {turns : Nat}
    (hturns : 0 < turns)
    (h : Serves answer (discoverPacket session_id.toNat.toUInt32 0) device next) :
    wait_for_bootloader answer session_id turns [] device = ⟨.ok (), [], next⟩ := by
  have hfits : (discoverPacket session_id.toNat.toUInt32 0).payload_len.toNat ≤ 128 :=
    Nat.zero_le _
  obtain ⟨turns, rfl⟩ := Nat.exists_eq_succ_of_ne_zero (Nat.ne_of_gt hturns)
  unfold wait_for_bootloader
  rw [pack_word_ok hid]
  dsimp only
  unfold host_port.wait_for_bootloader wait_loop
  rw [encode_packet_eq hfits]
  dsimp only
  rw [h, List.nil_append,
    show expect_ack UPDATE_CMD_DISCOVER session_id.toNat.toUInt32 0 _ = (.ok (), []) from
      expect_served (discoverPacket session_id.toNat.toUInt32 0)]

/-- The device answers what the tool sends before the update, as its arguments ask for. -/
def Opens (answer : List UInt8 → σ → List UInt8 × σ) (args : Arguments) (device opened : σ) :
    Prop :=
  if args.no_discover then opened = device
  else
    ∃ requested,
      (if args.no_app_reset then requested = device
        else Serves answer (enterPacket args.word 0) device requested) ∧
      0 < args.turns ∧ Serves answer (discoverPacket args.word 0) requested opened

/-- The tool returns 0 to a device that answers everything. -/
theorem main_served {args : Arguments} (hid : IsWord args.session_id) {binary : List UInt8}
    {metadata : Json} {image_crc32 : UInt32} {device opened last : σ}
    (hcheck : validate_artifacts binary metadata args.app_name args.board_name = .ok ())
    (hcrc : crcMember metadata = .int image_crc32.toNat)
    (hsize : binary.length < 2 ^ 32) (hopens : Opens answer args device opened)
    (hfits : ∀ packet ∈
      uart_update.run_update binary image_crc32 args.word (!args.no_activate),
      packet.payload_len.toNat ≤ 128)
    (hupdate : ServesAll answer
      (uart_update.run_update binary image_crc32 args.word (!args.no_activate)) opened last) :
    main answer args binary metadata device = (.ok 0, last) := by
  have hrun : run_update answer binary (.int image_crc32.toNat) args.session_id
      (!args.no_activate) [] opened = ⟨.ok (), [], last⟩ := by
    have hlength := (isWord_length binary).mpr hsize
    have hwords : begin_words binary (.int image_crc32.toNat) args.session_id =
        .ok (image_crc32, args.word) := by
      have hvalue : pack_value (.int image_crc32.toNat) = .ok image_crc32 :=
        pack_word_toNat image_crc32
      unfold begin_words
      rw [pack_word_ok hlength, hvalue, pack_word_ok hid]
      rfl
    unfold run_update
    rw [hwords]
    exact send_all_served hfits hupdate
  have hsession : session answer args binary (.int image_crc32.toNat) device = (.ok (), last) := by
    unfold session
    unfold Opens at hopens
    by_cases hdiscover : args.no_discover = true
    · rw [if_pos hdiscover] at hopens
      rw [if_pos (Or.inl hdiscover)]
      dsimp only
      rw [if_pos hdiscover]
      dsimp only
      rw [← hopens, hrun]
    · rw [if_neg hdiscover] at hopens
      obtain ⟨requested, hrequest, hturns, hprobe⟩ := hopens
      by_cases hreset : args.no_app_reset = true
      · rw [if_pos hreset] at hrequest
        rw [if_pos (Or.inr hreset)]
        dsimp only
        rw [if_neg hdiscover, ← hrequest, wait_served hid hturns hprobe]
        dsimp only
        rw [hrun]
      · rw [if_neg hreset] at hrequest
        rw [if_neg (not_or.mpr ⟨hdiscover, hreset⟩), REQUEST_RETRIES,
          request_served hid 4 hrequest]
        dsimp only
        rw [if_neg hdiscover, wait_served hid hturns hprobe]
        dsimp only
        rw [hrun]
  unfold main
  rw [hcheck, hcrc]
  dsimp only
  rw [hsession]
  rfl

end

/-! ## What the tool writes -/

/-- A port whose other end may send anything, depending on all that was written. -/
def recorded (reply : List (List UInt8) → List UInt8) (bytes : List UInt8)
    (written : List (List UInt8)) : List UInt8 × List (List UInt8) :=
  (reply (written ++ [bytes]), written ++ [bytes])

/-- A row of probes with the sequences from `sequence` on. -/
def probes (packet : UInt32 → UpdatePacket) (sequence : UInt32) : Nat → List (List UInt8)
  | 0 => []
  | count + 1 => encoded (packet sequence) :: probes packet (sequence + 1) count

theorem read_exact_caught {port : Port} {size : Nat} {error : ToolError}
    (h : (read_exact port size).1 = .error error) : ToolError.caught error = true := by
  unfold read_exact at h
  split at h
  · cases h
    rfl
  · cases h

theorem decode_packet_caught {data : List UInt8} {error : ToolError}
    (h : decode_packet data = .error error) : ToolError.caught error = true := by
  unfold decode_packet at h
  dsimp only at h
  split_ifs at h <;> cases h <;> rfl

theorem read_after_sync_caught {window : List UInt8} {port : Port} {error : ToolError}
    (h : (read_after_sync window port).1 = .error error) : ToolError.caught error = true := by
  unfold read_after_sync at h
  split at h
  · rename_i hread
    cases h
    exact read_exact_caught (congrArg Prod.fst hread)
  · dsimp only at h
    split at h
    · cases h
      rfl
    · split at h
      · rename_i hread
        cases h
        exact read_exact_caught (congrArg Prod.fst hread)
      · exact decode_packet_caught h

/-- What reading a packet raises, the loops of the tool catch. -/
theorem read_packet_caught {port : Port} {error : ToolError}
    (h : (host_port.read_packet port).1 = .error error) : ToolError.caught error = true := by
  unfold host_port.read_packet at h
  generalize ([] : List UInt8) = window at h
  induction port generalizing window with
  | nil =>
    cases h
    rfl
  | cons byte port ih =>
    unfold read_packet_loop at h
    dsimp only at h
    generalize (if (window ++ [byte]).length > 2 then (window ++ [byte]).drop 1
      else window ++ [byte]) = next at h
    by_cases hsync : next = write_u16_le UPDATE_PROTOCOL_SYNC
    · rw [if_pos hsync] at h
      exact read_after_sync_caught h
    · rw [if_neg hsync] at h
      exact ih _ h

theorem expect_ack_caught {command : UInt8} {session_id sequence : UInt32} {port : Port}
    {error : ToolError}
    (h : (host_port.expect_ack command session_id sequence port).1 = .error error) :
    ToolError.caught error = true := by
  unfold host_port.expect_ack at h
  split at h
  · rename_i hread
    cases h
    exact read_packet_caught (congrArg Prod.fst hread)
  · exact check_ack_caught h

section
variable {reply : List (List UInt8) → List UInt8} {session_id : UInt32}

/-- The request writes one ENTER_UPDATE a turn, and raises nothing. -/
theorem request_writes (left : Nat) (sequence : UInt32) (port : Port)
    (written : List (List UInt8)) :
    let out := request_loop (recorded reply) session_id left sequence port written
    (∃ accepted, out.result = .ok accepted) ∧
      ∃ count ≤ left, out.device = written ++ probes (enterPacket session_id) sequence count := by
  induction left generalizing sequence port written with
  | zero => exact ⟨⟨false, rfl⟩, 0, Nat.le_refl 0, (List.append_nil _).symm⟩
  | succ left ih =>
    unfold request_loop
    have hfits : (enterPacket session_id sequence).payload_len.toNat ≤ 128 := Nat.zero_le _
    rw [encode_packet_eq hfits]
    dsimp only [recorded]
    generalize hread : host_port.expect_ack UPDATE_CMD_ENTER_UPDATE session_id sequence _ = read
    obtain ⟨result, rest⟩ := read
    cases result with
    | ok =>
      exact ⟨⟨true, rfl⟩, 1, by omega, rfl⟩
    | error error =>
      dsimp only
      rw [if_pos (expect_ack_caught (congrArg Prod.fst hread))]
      obtain ⟨hresult, count, hle, hdevice⟩ := ih (sequence + 1) rest
        (written ++ [encoded (enterPacket session_id sequence)])
      refine ⟨hresult, count + 1, by omega, ?_⟩
      rw [hdevice, List.append_assoc]
      rfl

/-- The wait writes one DISCOVER a turn, and at least one when it succeeds. -/
theorem wait_writes (turns : Nat) (sequence : UInt32) (port : Port)
    (written : List (List UInt8)) :
    let out := wait_loop (recorded reply) session_id turns sequence port written
    ∃ count ≤ turns,
      out.device = written ++ probes (discoverPacket session_id) sequence count ∧
      (out.result = .ok () ∧ 0 < count ∨
        ∃ error, out.result = .error error ∧ ToolError.caught error = true ∧ count = turns) := by
  induction turns generalizing sequence port written with
  | zero => exact ⟨0, Nat.le_refl 0, (List.append_nil _).symm, Or.inr ⟨_, rfl, rfl, rfl⟩⟩
  | succ turns ih =>
    unfold wait_loop
    have hfits : (discoverPacket session_id sequence).payload_len.toNat ≤ 128 := Nat.zero_le _
    rw [encode_packet_eq hfits]
    dsimp only [recorded]
    generalize hread : host_port.expect_ack UPDATE_CMD_DISCOVER session_id sequence _ = read
    obtain ⟨result, rest⟩ := read
    cases result with
    | ok => exact ⟨1, by omega, rfl, Or.inl ⟨rfl, Nat.one_pos⟩⟩
    | error error =>
      dsimp only
      rw [if_pos (expect_ack_caught (congrArg Prod.fst hread))]
      obtain ⟨count, hle, hdevice, hend⟩ := ih (sequence + 1) rest
        (written ++ [encoded (discoverPacket session_id sequence)])
      refine ⟨count + 1, by omega, ?_, ?_⟩
      · rw [hdevice, List.append_assoc]
        rfl
      · rcases hend with ⟨hok, -⟩ | ⟨error, herror, hcaught, hcount⟩
        · exact Or.inl ⟨hok, Nat.succ_pos count⟩
        · exact Or.inr ⟨error, herror, hcaught, by omega⟩

/-- The update writes a first part of its packets, each once, and all of them when it
returns. -/
theorem send_all_writes {packets : List UpdatePacket}
    (hfits : ∀ packet ∈ packets, packet.payload_len.toNat ≤ 128) (port : Port)
    (written : List (List UInt8)) :
    let out := send_all (recorded reply) packets port written
    ∃ count ≤ packets.length,
      out.device = written ++ (packets.take count).map encoded ∧
      (out.result = .ok () ∧ count = packets.length ∨
        ∃ error, out.result = .error error ∧ ToolError.caught error = true) := by
  induction packets generalizing port written with
  | nil => exact ⟨0, Nat.le_refl 0, (List.append_nil _).symm, Or.inl ⟨rfl, rfl⟩⟩
  | cons packet packets ih =>
    unfold send_all send_and_ack
    rw [encode_packet_eq (hfits packet (List.mem_cons_self ..))]
    dsimp only [recorded]
    generalize hread : host_port.expect_ack packet.command packet.session_id packet.sequence _ =
      read
    obtain ⟨result, rest⟩ := read
    cases result with
    | error error =>
      exact ⟨1, by simp, by simp, Or.inr ⟨error, rfl, expect_ack_caught (congrArg Prod.fst hread)⟩⟩
    | ok =>
      dsimp only
      obtain ⟨count, hle, hdevice, hend⟩ := ih (fun p hp => hfits p (List.mem_cons_of_mem _ hp)) rest
        (written ++ [encoded packet])
      refine ⟨count + 1, by simpa using hle, ?_, ?_⟩
      · rw [hdevice]
        simp
      · rcases hend with ⟨hok, hcount⟩ | hfailed
        · exact Or.inl ⟨hok, by simp [hcount]⟩
        · exact Or.inr hfailed

end

theorem packet_fits (command : UInt8) (session_id sequence : UInt32) (payload : List UInt8)
    (h : payload.length ≤ MAX_PAYLOAD) :
    (packet command session_id sequence payload h).payload_len.toNat ≤ 128 := by
  rw [← (packet command session_id sequence payload h).length_payload]
  exact h

theorem run_update_fits {binary : List UInt8} {image_crc32 session_id : UInt32} {activate : Bool}
    {sent : UpdatePacket}
    (h : sent ∈ uart_update.run_update binary image_crc32 session_id activate) :
    sent.payload_len.toNat ≤ 128 := by
  simp only [uart_update.run_update, List.mem_append, List.mem_cons, List.not_mem_nil, or_false,
    blockPackets, List.mem_map] at h
  rcases h with ((rfl | ⟨k, -, rfl⟩) | rfl | rfl) | hlast
  · exact packet_fits ..
  · exact packet_fits ..
  · exact packet_fits ..
  · exact packet_fits ..
  · split_ifs at hlast
    · rw [List.mem_singleton.mp hlast]
      exact packet_fits ..
    · cases hlast

/-- A number that `struct.pack` is given and does not take: the size of the image, the
CRC of the sidecar when it is a float, or the session id. -/
def Unpackable (binary : List UInt8) (image_crc32 : Json) (session_id : Int) : Prop :=
  binary.length ≥ 2 ^ 32 ∨ (∃ value, image_crc32 = .float value) ∨ ¬ IsWord session_id

/-- The words of BEGIN for a CRC that the check has passed. -/
theorem begin_words_cases (binary : List UInt8) {image_crc32 : Json} {crc : UInt32}
    (hcrc : image_crc32.equalsInt crc.toNat = true) (session_id : Int) :
    begin_words binary image_crc32 session_id = .ok (crc, session_id.toNat.toUInt32) ∨
      begin_words binary image_crc32 session_id = .error .StructError ∧
        Unpackable binary image_crc32 session_id := by
  unfold begin_words
  by_cases hlength : IsWord (binary.length : Int)
  · rw [pack_word_ok hlength]
    have hvalue : pack_value image_crc32 = .ok crc ∨
        pack_value image_crc32 = .error .StructError ∧ ∃ value, image_crc32 = .float value := by
      cases image_crc32 with
      | int value =>
        rw [show value = (crc.toNat : Int) from of_decide_eq_true hcrc]
        exact Or.inl (pack_word_toNat crc)
      | bool value =>
        have hword : (if value then 1 else 0 : Int) = crc.toNat := of_decide_eq_true hcrc
        refine Or.inl (congrArg Except.ok (UInt32.toNat_inj.mp ?_))
        cases value <;> exact_mod_cast hword
      | float value => exact Or.inr ⟨rfl, value, rfl⟩
      | null => cases hcrc
      | string => cases hcrc
      | array => cases hcrc
      | object => cases hcrc
    rcases hvalue with hvalue | ⟨hvalue, hfloat⟩
    · rw [hvalue]
      by_cases hid : IsWord session_id
      · rw [pack_word_ok hid]
        exact Or.inl rfl
      · rw [show pack_word session_id = .error .StructError from if_neg hid]
        exact Or.inr ⟨rfl, Or.inr (Or.inr hid)⟩
    · rw [hvalue]
      exact Or.inr ⟨rfl, Or.inr (Or.inl hfloat)⟩
  · rw [show pack_word binary.length = .error .StructError from if_neg hlength]
    exact Or.inr ⟨rfl, Or.inl (Nat.not_lt.mp (mt (isWord_length binary).mpr hlength))⟩

/-- How a part of the tool ends, with the error it raises. -/
def Ends (args : Arguments) (binary : List UInt8) (image_crc32 : Json)
    (result : Except ToolError Unit) (finished : Prop) : Prop :=
  result = .ok () ∧ finished ∨
    ∃ error, result = .error error ∧
      (ToolError.caught error = true ∨
        error = .StructError ∧ Unpackable binary image_crc32 args.session_id)

section
variable {reply : List (List UInt8) → List UInt8} {args : Arguments} {binary : List UInt8}
  {image_crc32 : Json} {crc : UInt32}

theorem run_update_writes (hcrc : image_crc32.equalsInt crc.toNat = true) (port : Port)
    (written : List (List UInt8)) :
    let out := run_update (recorded reply) binary image_crc32 args.session_id (!args.no_activate)
      port written
    let script := uart_update.run_update binary crc args.word (!args.no_activate)
    ∃ sent ≤ script.length,
      out.device = written ++ (script.take sent).map encoded ∧
      Ends args binary image_crc32 out.result (sent = script.length) := by
  unfold run_update
  rcases begin_words_cases binary hcrc args.session_id with hwords | ⟨hwords, hunpackable⟩
  · rw [hwords]
    obtain ⟨sent, hle, hdevice, hend⟩ := @send_all_writes reply _
      (fun _ h => run_update_fits h) port written
    refine ⟨sent, hle, hdevice, hend.imp_right ?_⟩
    rintro ⟨error, herror, hcaught⟩
    exact ⟨error, herror, Or.inl hcaught⟩
  · rw [hwords]
    exact ⟨0, Nat.zero_le _, (List.append_nil _).symm,
      Or.inr ⟨_, rfl, Or.inr ⟨rfl, hunpackable⟩⟩⟩

/-- The part of `session` from the wait on. -/
theorem waited_writes (hid : IsWord args.session_id)
    (hcrc : image_crc32.equalsInt crc.toNat = true) (port : Port) (written : List (List UInt8)) :
    let waited : Waited (List (List UInt8)) :=
      if args.no_discover then ⟨.ok (), port, written⟩
      else wait_for_bootloader (recorded reply) args.session_id args.turns port written
    let script := uart_update.run_update binary crc args.word (!args.no_activate)
    (∃ error, waited.result = .error error ∧ ToolError.caught error = true ∧
        ∃ discovers ≤ args.turns,
          waited.device = written ++ probes (discoverPacket args.word) 0 discovers) ∨
      waited.result = .ok () ∧ ∃ discovers ≤ args.turns, ∃ sent ≤ script.length,
        let done := run_update (recorded reply) binary image_crc32 args.session_id
          (!args.no_activate) waited.port waited.device
        done.device = written ++ probes (discoverPacket args.word) 0 discovers ++
            (script.take sent).map encoded ∧
          (args.no_discover = true ∨ 0 < discovers) ∧
          Ends args binary image_crc32 done.result (sent = script.length) := by
  intro waited script
  have hupdate := @run_update_writes reply args binary image_crc32 crc hcrc waited.port
    waited.device
  by_cases hdiscover : args.no_discover = true
  · have hwaited : waited = ⟨.ok (), port, written⟩ := if_pos hdiscover
    obtain ⟨sent, hle, hdevice, hend⟩ := hupdate
    refine Or.inr ⟨by rw [hwaited], 0, Nat.zero_le _, sent, hle, ?_, Or.inl hdiscover, hend⟩
    rw [hdevice, hwaited]
    simp [probes, script]
  · have hwaited : waited =
        host_port.wait_for_bootloader (recorded reply) args.word args.turns port written := by
      rw [show waited = _ from if_neg hdiscover]
      unfold wait_for_bootloader
      rw [pack_word_ok hid]
      rfl
    obtain ⟨discovers, hturns, hdevice, hend⟩ :=
      @wait_writes reply args.word args.turns 0 port written
    have hprobed : waited.device = written ++ probes (discoverPacket args.word) 0 discovers := by
      rw [hwaited]
      exact hdevice
    rcases hend with ⟨hok, hpositive⟩ | ⟨error, herror, hcaught, -⟩
    · obtain ⟨sent, hle, hsent, hend⟩ := hupdate
      refine Or.inr ⟨by rw [hwaited]; exact hok, discovers, hturns, sent, hle, ?_,
        Or.inr hpositive, hend⟩
      rw [hsent, hprobed]
    · exact Or.inl ⟨error, by rw [hwaited]; exact herror, hcaught, discovers, hturns, hprobed⟩

theorem session_writes (hid : IsWord args.session_id)
    (hcrc : image_crc32.equalsInt crc.toNat = true) :
    let out := session (recorded reply) args binary image_crc32 []
    let script := uart_update.run_update binary crc args.word (!args.no_activate)
    ∃ requests ≤ REQUEST_RETRIES, ∃ discovers ≤ args.turns, ∃ sent ≤ script.length,
      out.2 = probes (enterPacket args.word) 0 requests ++
          probes (discoverPacket args.word) 0 discovers ++ (script.take sent).map encoded ∧
        (0 < sent → args.no_discover = true ∨ 0 < discovers) ∧
        Ends args binary image_crc32 out.1 (sent = script.length) := by
  intro out script
  obtain ⟨requests, hretries, requested, hrequest, ⟨accepted, hresult⟩, hdevice⟩ :
      ∃ requests ≤ REQUEST_RETRIES, ∃ requested : Requested (List (List UInt8)),
        requested = (if args.no_discover ∨ args.no_app_reset then ⟨.ok false, [], []⟩
          else request_update_mode (recorded reply) args.session_id REQUEST_RETRIES [] []) ∧
        (∃ accepted, requested.result = .ok accepted) ∧
        requested.device = probes (enterPacket args.word) 0 requests := by
    by_cases hno : args.no_discover = true ∨ args.no_app_reset = true
    · exact ⟨0, Nat.zero_le _, _, rfl, by rw [if_pos hno]; exact ⟨false, rfl⟩, by
        rw [if_pos hno]; rfl⟩
    · obtain ⟨hok, requests, hle, hdevice⟩ :=
        @request_writes reply args.word REQUEST_RETRIES 0 [] []
      have hloop : request_update_mode (recorded reply) args.session_id REQUEST_RETRIES [] [] =
          request_loop (recorded reply) args.word REQUEST_RETRIES 0 [] [] := by
        unfold request_update_mode
        rw [pack_word_ok hid]
        rfl
      rw [← hloop] at hok hdevice
      exact ⟨requests, hle, _, rfl, by rw [if_neg hno]; exact hok, by
        rw [if_neg hno]; exact hdevice⟩
  have hwaited := @waited_writes reply args binary image_crc32 crc hid hcrc requested.port
    requested.device
  have hout : out = session (recorded reply) args binary image_crc32 [] := rfl
  unfold session at hout
  rw [← hrequest] at hout
  dsimp only at hout hwaited
  rw [hresult] at hout
  dsimp only at hout
  generalize (if args.no_discover = true then _ else _ : Waited (List (List UInt8))) = waited
    at hout hwaited
  rcases hwaited with ⟨error, herror, hcaught, discovers, hturns, hprobed⟩ |
      ⟨hok, discovers, hturns, sent, hle, hsent, hopened, hend⟩
  · rw [herror] at hout
    refine ⟨requests, hretries, discovers, hturns, 0, Nat.zero_le _, ?_, nofun, ?_⟩
    · rw [hout]
      dsimp only
      rw [hprobed, hdevice]
      simp
    · rw [hout]
      exact Or.inr ⟨error, rfl, Or.inl hcaught⟩
  · rw [hok] at hout
    dsimp only at hout
    refine ⟨requests, hretries, discovers, hturns, sent, hle, ?_, fun _ => hopened, ?_⟩
    · rw [hout]
      dsimp only
      rw [hsent, hdevice]
    · rw [hout]
      exact hend

/-- With a session id that is no word, nothing is written. -/
theorem session_unpacked {σ : Type} {answer : List UInt8 → σ → List UInt8 × σ}
    (hid : ¬ IsWord args.session_id) (hcrc : image_crc32.equalsInt crc.toNat = true) (device : σ) :
    (session answer args binary image_crc32 device).2 = device ∧
      Ends args binary image_crc32 (session answer args binary image_crc32 device).1 False := by
  have hword : pack_word args.session_id = .error .StructError := if_neg hid
  have hraises : Ends args binary image_crc32 (.error .StructError) False :=
    Or.inr ⟨_, rfl, Or.inr ⟨rfl, Or.inr (Or.inr hid)⟩⟩
  have hrun : ∀ port, run_update answer binary image_crc32 args.session_id (!args.no_activate)
      port device = ⟨.error .StructError, port, device⟩ := by
    intro port
    unfold run_update
    rcases begin_words_cases binary hcrc args.session_id with hwords | ⟨hwords, -⟩
    · unfold begin_words at hwords
      rw [hword] at hwords
      cases hlength : pack_word binary.length with
      | error error => rw [hlength] at hwords; cases hwords
      | ok size =>
        cases hvalue : pack_value image_crc32 with
        | error error => rw [hlength, hvalue] at hwords; cases hwords
        | ok value => rw [hlength, hvalue] at hwords; cases hwords
    · rw [hwords]
  have hwait : ∀ port, wait_for_bootloader answer args.session_id args.turns port device =
        ⟨.error .StructError, port, device⟩ ∨
      ∃ message, wait_for_bootloader answer args.session_id args.turns port device =
        ⟨.error (.TimeoutError message), port, device⟩ := by
    intro port
    unfold wait_for_bootloader
    rw [hword]
    dsimp only
    split
    · exact Or.inr ⟨_, rfl⟩
    · exact Or.inl rfl
  unfold session
  by_cases hdiscover : args.no_discover = true
  · rw [if_pos (Or.inl hdiscover)]
    dsimp only
    rw [if_pos hdiscover]
    dsimp only
    rw [hrun]
    exact ⟨rfl, hraises⟩
  · by_cases hreset : args.no_app_reset = true
    · rw [if_pos (Or.inr hreset)]
      dsimp only
      rw [if_neg hdiscover]
      rcases hwait [] with hwait | ⟨message, hwait⟩
      · rw [hwait]
        exact ⟨rfl, hraises⟩
      · rw [hwait]
        exact ⟨rfl, Or.inr ⟨_, rfl, Or.inl rfl⟩⟩
    · rw [if_neg (not_or.mpr ⟨hdiscover, hreset⟩)]
      unfold request_update_mode
      rw [hword]
      exact ⟨rfl, hraises⟩

end

/-- What passes the check is an object. -/
theorem object_of_check {binary : List UInt8} {metadata : Json} {app_name board_name : Option Text}
    (h : validate_artifacts binary metadata app_name board_name = .ok ()) :
    ∃ members, metadata = .object members := by
  unfold validate_artifacts at h
  cases metadata with
  | object members => exact ⟨members, rfl⟩
  | null => cases h
  | bool => cases h
  | int => cases h
  | float => cases h
  | string => cases h
  | array => cases h

theorem exit_code_error (error : ToolError) : exit_code (.error error) ≠ .ok 0 := by
  cases error <;> nofun

theorem exit_code_ends {args : Arguments} {binary : List UInt8} {image_crc32 : Json}
    {result : Except ToolError Unit} {finished : Prop}
    (h : Ends args binary image_crc32 result finished) :
    exit_code result = .ok 0 ∨ exit_code result = .ok 1 ∨
      exit_code result = .error .StructError ∧
        Unpackable binary image_crc32 args.session_id := by
  rcases h with ⟨rfl, -⟩ | ⟨error, rfl, hcaught | ⟨rfl, hunpackable⟩⟩
  · exact Or.inl rfl
  · cases error with
    | UpdateError => exact Or.inr (Or.inl rfl)
    | TimeoutError => exact Or.inr (Or.inl rfl)
    | ValueError => cases hcaught
    | StructError => cases hcaught
    | AttributeError => cases hcaught
  · exact Or.inr (Or.inr ⟨rfl, hunpackable⟩)

/-- A sidecar that does not match is refused before anything is written. -/
theorem main_rejected {σ : Type} (answer : List UInt8 → σ → List UInt8 × σ) (args : Arguments)
    {binary : List UInt8} {metadata : Json}
    (h : validate_artifacts binary metadata args.app_name args.board_name ≠ .ok ()) (device : σ) :
    main answer args binary metadata device = (.ok 1, device) ∨
      main answer args binary metadata device = (.error .AttributeError, device) ∧
        ∀ members, metadata ≠ .object members := by
  unfold main
  unfold validate_artifacts at h ⊢
  cases metadata with
  | object members =>
    dsimp only at h ⊢
    split_ifs at h ⊢
    · exact Or.inl rfl
    · exact Or.inl rfl
    · exact Or.inl rfl
    · exact Or.inl rfl
    · exact absurd rfl h
  | null => exact Or.inr ⟨rfl, nofun⟩
  | bool => exact Or.inr ⟨rfl, nofun⟩
  | int => exact Or.inr ⟨rfl, nofun⟩
  | float => exact Or.inr ⟨rfl, nofun⟩
  | string => exact Or.inr ⟨rfl, nofun⟩
  | array => exact Or.inr ⟨rfl, nofun⟩

theorem main_checked {σ : Type} (answer : List UInt8 → σ → List UInt8 × σ) {args : Arguments}
    {binary : List UInt8} {metadata : Json}
    (h : validate_artifacts binary metadata args.app_name args.board_name = .ok ()) (device : σ) :
    main answer args binary metadata device =
      (exit_code (session answer args binary (crcMember metadata) device).1,
        (session answer args binary (crcMember metadata) device).2) := by
  unfold main
  rw [h]

/-- What does not finish does not return 0. -/
theorem exit_code_unfinished {args : Arguments} {binary : List UInt8} {image_crc32 : Json}
    {result : Except ToolError Unit} {finished : Prop}
    (h : Ends args binary image_crc32 result finished) (hzero : exit_code result = .ok 0) :
    finished := by
  rcases h with ⟨-, hfinished⟩ | ⟨error, rfl, -⟩
  · exact hfinished
  · exact absurd hzero (exit_code_error error)

end stm32_vibe.update_tool
