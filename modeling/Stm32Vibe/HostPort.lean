-- The serial port as the update tool reads it, and its wait for the bootloader.
-- Each turn of the wait sends one DISCOVER and reads one packet, so the tool
-- stays as many ACKs behind the device as were unread when it began.
import Stm32Vibe.UartUpdate
import Stm32Vibe.UpdateLoop

namespace stm32_vibe.host_port

open little_endian boot_flash update_protocol update_session update_loop uart_update

/-! ## Reading the port -/

/-- The bytes that are there, or arrive before the reader gives up. -/
abbrev Port := List UInt8

def read_exact (port : Port) (size : Nat) : Except ToolError (List UInt8) × Port :=
  if port.length < size then
    (.error (.TimeoutError "timed out waiting for bootloader response"), [])
  else (.ok (port.take size), port.drop size)

/-- What `read_packet` does once the sync is in its window. -/
def read_after_sync (window : List UInt8) (port : Port) : Except ToolError UpdatePacket × Port :=
  match read_exact port (UPDATE_PROTOCOL_HEADER_SIZE - 2) with
  | (.error error, port) => (.error error, port)
  | (.ok rest, port) =>
    let header := window ++ rest
    let payload_len := read_u16_le header 6
    if payload_len.toNat > MAX_PAYLOAD then
      (.error (.UpdateError "response payload too large"), port)
    else
      match read_exact port (payload_len.toNat + UPDATE_PROTOCOL_CRC_SIZE) with
      | (.error error, port) => (.error error, port)
      | (.ok tail, port) => (decode_packet (header ++ tail), port)

/-- The window holds the last two bytes. -/
def read_packet_loop (window : List UInt8) : Port → Except ToolError UpdatePacket × Port
  | [] => (.error (.TimeoutError "timed out waiting for packet sync"), [])
  | byte :: port =>
    let window := window ++ [byte]
    let window := if window.length > 2 then window.drop 1 else window
    if window = write_u16_le UPDATE_PROTOCOL_SYNC then read_after_sync window port
    else read_packet_loop window port

def read_packet (port : Port) : Except ToolError UpdatePacket × Port :=
  read_packet_loop [] port

/-- What `expect_ack` asks of the packet that it read. -/
def check_ack (command : UInt8) (session_id sequence : UInt32) (ack : UpdatePacket) :
    Except ToolError Unit :=
  if ack.command ≠ UPDATE_CMD_ACK then
    .error (.UpdateError s!"expected ACK, got command {ack.command}")
  else if ack.session_id ≠ session_id then .error (.UpdateError "ACK session mismatch")
  else if ack.sequence ≠ sequence then .error (.UpdateError "ACK sequence mismatch")
  else
    match ack.payload with
    | [acked_command, status] =>
      if acked_command ≠ command then
        .error (.UpdateError
          s!"ACK command mismatch: expected {command}, got {acked_command}")
      else if status ≠ STATUS_OK then
        .error (.UpdateError s!"bootloader returned status {status} for command {command}")
      else .ok ()
    | _ => .error (.UpdateError "malformed ACK payload")

def expect_ack (command : UInt8) (session_id sequence : UInt32) (port : Port) :
    Except ToolError Unit × Port :=
  match read_packet port with
  | (.error error, port) => (.error error, port)
  | (.ok ack, port) => (check_ack command session_id sequence ack, port)

/-! ## The wait -/

/-- The errors that `except (TimeoutError, UpdateError)` catches. -/
def ToolError.caught : ToolError → Bool
  | .UpdateError _ => true
  | .TimeoutError _ => true
  | .ValueError _ => false
  | .StructError => false
  | .AttributeError => false

/-- How a wait ends: its result, the port, and the device behind it. -/
structure Waited (σ : Type) where
  result : Except ToolError Unit
  port : Port
  device : σ

def discoverPacket (session_id sequence : UInt32) : UpdatePacket :=
  packet UPDATE_CMD_DISCOVER session_id sequence [] (Nat.zero_le _)

section
variable {σ : Type} (answer : List UInt8 → σ → List UInt8 × σ)

/-- The loop of `wait_for_bootloader`, with the number of turns that its
deadline leaves; `answer` is what the device sends for the bytes it gets. -/
def wait_loop (session_id : UInt32) : Nat → UInt32 → Port → σ → Waited σ
  | 0, _, port, device =>
    ⟨.error (.TimeoutError "bootloader did not respond to DISCOVER"), port, device⟩
  | turns + 1, sequence, port, device =>
    match encode_packet (discoverPacket session_id sequence) with
    | .error error => ⟨.error error, port, device⟩
    | .ok encoded =>
      let answered := answer encoded device
      match expect_ack UPDATE_CMD_DISCOVER session_id sequence (port ++ answered.1) with
      | (.ok (), port) => ⟨.ok (), port, answered.2⟩
      | (.error error, port) =>
        if ToolError.caught error then
          wait_loop session_id turns (sequence + 1) port answered.2
        else ⟨.error error, port, answered.2⟩

def wait_for_bootloader (session_id : UInt32) (turns : Nat) (port : Port) (device : σ) :
    Waited σ :=
  wait_loop answer session_id turns 0 port device

/-- The device answers every DISCOVER at once, with one ACK. -/
def AnswersDiscover : Prop :=
  ∀ device session_id sequence,
    (answer (encoded (discoverPacket session_id sequence)) device).1 =
      encoded (ackPacket UPDATE_CMD_DISCOVER .Ok session_id sequence)

end

/-- The bootloader behind the port, as its update loop answers one packet. -/
def bootloader (board : Board) (environment : Environment) (encoded : List UInt8)
    (world : World) : List UInt8 × World :=
  let out := boot_update_loop_process_encoded board environment encoded
    UPDATE_PROTOCOL_MAX_PACKET_SIZE world
  (out.1.toOption.getD [], out.2)

/-! ## One packet from the port -/

theorem read_exact_append {bytes : List UInt8} (rest : Port) {size : Nat}
    (h : bytes.length = size) : read_exact (bytes ++ rest) size = (.ok bytes, rest) := by
  have hlong : ¬ (bytes ++ rest).length < size := by
    rw [List.length_append]
    omega
  unfold read_exact
  rw [if_neg hlong, List.take_left' h, List.drop_left' h]

/-- Past the sync, the reader takes the 14 other bytes of the header and what
their length field says. -/
theorem read_after_sync_append {window head tail : List UInt8} (rest : Port)
    (hhead : head.length = UPDATE_PROTOCOL_HEADER_SIZE - 2)
    (hfits : (read_u16_le (window ++ head) 6).toNat ≤ 128)
    (htail : tail.length =
      (read_u16_le (window ++ head) 6).toNat + UPDATE_PROTOCOL_CRC_SIZE) :
    read_after_sync window (head ++ (tail ++ rest)) =
      (decode_packet (window ++ head ++ tail), rest) := by
  have hshort : ¬ (read_u16_le (window ++ head) 6).toNat > MAX_PAYLOAD := Nat.not_lt.mpr hfits
  unfold read_after_sync
  rw [read_exact_append (tail ++ rest) hhead]
  dsimp only
  rw [if_neg hshort, read_exact_append rest htail]

/-- An accepted packet at the front of the port is read whole, and nothing
behind it is touched. -/
theorem read_packet_append {data : List UInt8} (h : Accepts data) (rest : Port) :
    read_packet (data ++ rest) = (.ok (decoded data), rest) := by
  have hlength := h.length
  obtain ⟨first, second, body, rfl⟩ : ∃ first second body, data = first :: second :: body := by
    match data, hlength with
    | [], hlength => simp at hlength; omega
    | [_], hlength => simp at hlength; omega
    | first :: second :: body, _ => exact ⟨first, second, body, rfl⟩
  have hwindow : [first, second] = write_u16_le UPDATE_PROTOCOL_SYNC := by
    rw [← h.sync]
    simp [read_u16_le, write_u16_le, unpackHalf]
  have hsplit : body = body.take 14 ++ body.drop 14 := (List.take_append_drop 14 body).symm
  have hfield : read_u16_le ([first, second] ++ body.take 14) 6 =
      read_u16_le (first :: second :: body) 6 := by
    simp [read_u16_le, List.getD]
  have hfits := h.fits
  rw [← hfield] at hlength hfits
  have hread : read_packet (first :: second :: body ++ rest) =
      read_after_sync [first, second] (body ++ rest) := by
    simp [read_packet, read_packet_loop, ← hwindow]
  rw [hread, hsplit, List.append_assoc, read_after_sync_append rest]
  · rw [List.append_assoc, ← hsplit]
    rw [← decode_packet_accepted h]
    rfl
  · simp only [List.length_cons] at hlength
    rw [List.length_take, min_eq_left (by omega)]
    rfl
  · exact hfits
  · simp only [List.length_cons] at hlength
    rw [List.length_drop, show UPDATE_PROTOCOL_CRC_SIZE = 4 from rfl]
    omega

/-- The check of `expect_ack` on one packet of the line is the one on the port. -/
theorem expect_ack_eq (command : UInt8) (session_id sequence : UInt32) (data : List UInt8) :
    uart_update.expect_ack command session_id sequence data =
      (uart_update.read_packet data).bind (check_ack command session_id sequence) := by
  unfold uart_update.expect_ack
  cases uart_update.read_packet data with
  | error error => rfl
  | ok ack => rfl

/-- With a packet at the front of the port, the answer is the one on the line. -/
theorem expect_ack_append {data : List UInt8} (h : Accepts data) (rest : Port)
    (command : UInt8) (session_id sequence : UInt32) :
    expect_ack command session_id sequence (data ++ rest) =
      (uart_update.expect_ack command session_id sequence data, rest) := by
  unfold expect_ack
  rw [read_packet_append h, expect_ack_eq, read_packet_accepted h]
  rfl

theorem read_packet_encoded {packet : UpdatePacket} (hfits : packet.payload_len.toNat ≤ 128)
    (rest : Port) : read_packet (encoded packet ++ rest) = (.ok packet, rest) := by
  rw [read_packet_append (encoded_accepts hfits)]
  congr 2
  exact decoded_message packet _

theorem expect_ack_encoded {packet : UpdatePacket} (hfits : packet.payload_len.toNat ≤ 128)
    (rest : Port) (command : UInt8) (session_id sequence : UInt32) :
    expect_ack command session_id sequence (encoded packet ++ rest) =
      (check_ack command session_id sequence packet, rest) := by
  unfold expect_ack
  rw [read_packet_encoded hfits]

/-- The bootloader answers every DISCOVER, whatever its state. -/
theorem bootloader_answers (board : Board) (environment : Environment) :
    AnswersDiscover (bootloader board environment) := by
  intro world session_id sequence
  have hfits : (discoverPacket session_id sequence).payload_len.toNat ≤ 128 := Nat.zero_le _
  have hlen : read_u16_le (encoded (discoverPacket session_id sequence)) 6 = 0 :=
    read_message_len _ _
  have hdecode := decode_accepted (encoded_accepts hfits) emptyPacket world.loop.payload
    (by rw [hlen]; exact Nat.zero_le _ : _ ≤ UPDATE_PROTOCOL_MAX_PAYLOAD)
  have hdecoded : decoded (encoded (discoverPacket session_id sequence)) =
      discoverPacket session_id sequence := decoded_message _ _
  rw [hdecoded] at hdecode
  unfold bootloader boot_update_loop_process_encoded
  dsimp only
  rw [hdecode]
  dsimp only
  rw [if_neg (by decide), encode_ack_ok]
  rfl

/-! ## The unread packets -/

/-- A port with these packets unread, oldest first. -/
def queued (packets : List UpdatePacket) : Port := packets.flatMap encoded

theorem queued_cons (packet : UpdatePacket) (packets : List UpdatePacket) :
    queued (packet :: packets) = encoded packet ++ queued packets := rfl

theorem queued_concat (packets : List UpdatePacket) (packet : UpdatePacket) :
    queued (packets ++ [packet]) = queued packets ++ encoded packet := by
  simp [queued]

theorem queued_eq_nil {packets : List UpdatePacket} :
    queued packets = [] ↔ packets = [] := by
  constructor
  · intro h
    cases packets with
    | nil => rfl
    | cons packet packets =>
      have hlength := congrArg List.length h
      rw [queued_cons, List.length_append, length_encoded, List.length_nil] at hlength
      omega
  · rintro rfl
    rfl

/-- Packets that the line carries. -/
def Sendable (packets : List UpdatePacket) : Prop :=
  ∀ packet ∈ packets, packet.payload_len.toNat ≤ 128

section
variable {σ : Type} {answer : List UInt8 → σ → List UInt8 × σ} {session_id : UInt32}

/-- The answer to the DISCOVER of a turn. -/
def discoverAck (session_id sequence : UInt32) : UpdatePacket :=
  ackPacket UPDATE_CMD_DISCOVER .Ok session_id sequence

theorem check_discoverAck (sequence : UInt32) :
    check_ack UPDATE_CMD_DISCOVER session_id sequence (discoverAck session_id sequence) =
      .ok () := by
  simp [check_ack, discoverAck, ackPacket]
  decide

/-- The check of an ACK raises nothing but `UpdateError`. -/
theorem check_ack_caught {command : UInt8} {sequence : UInt32} {ack : UpdatePacket}
    {error : ToolError} (h : check_ack command session_id sequence ack = .error error) :
    ToolError.caught error = true := by
  unfold check_ack at h
  split_ifs at h
  · cases h
    rfl
  · cases h
    rfl
  · cases h
    rfl
  · split at h
    · split_ifs at h
      · cases h
        rfl
      · cases h
        rfl
    · cases h
      rfl

/-- One turn reads the oldest packet of those that were unread and the answer to
its own DISCOVER, which is the newest. -/
theorem wait_loop_turn (answers : AnswersDiscover answer) (turns : Nat) (sequence : UInt32)
    (device : σ) {unread rest : List UpdatePacket} {oldest : UpdatePacket}
    (hfits : oldest.payload_len.toNat ≤ 128)
    (hqueue : unread ++ [discoverAck session_id sequence] = oldest :: rest) :
    let answered := (answer (encoded (discoverPacket session_id sequence)) device).2
    wait_loop answer session_id (turns + 1) sequence (queued unread) device =
      match check_ack UPDATE_CMD_DISCOVER session_id sequence oldest with
      | .ok () => ⟨.ok (), queued rest, answered⟩
      | .error _ => wait_loop answer session_id turns (sequence + 1) (queued rest) answered := by
  intro answered
  have hsend : encode_packet (discoverPacket session_id sequence) =
      .ok (encoded (discoverPacket session_id sequence)) := encode_packet_eq (Nat.zero_le _)
  have hport : queued unread ++ (answer (encoded (discoverPacket session_id sequence)) device).1 =
      encoded oldest ++ queued rest := by
    rw [answers, ← queued_cons, ← hqueue, queued_concat]
    rfl
  rw [wait_loop, hsend]
  dsimp only
  rw [hport, expect_ack_encoded hfits]
  cases hcheck : check_ack UPDATE_CMD_DISCOVER session_id sequence oldest with
  | ok => rfl
  | error error =>
    dsimp only
    rw [if_pos (check_ack_caught hcheck)]

/-- As many packets stay unread as were, whether the wait succeeds or not. -/
theorem wait_loop_unread (answers : AnswersDiscover answer) (turns : Nat) (sequence : UInt32)
    (device : σ) {unread : List UpdatePacket} (hsend : Sendable unread) :
    ∃ left, left.length = unread.length ∧
      (wait_loop answer session_id turns sequence (queued unread) device).port = queued left := by
  induction turns generalizing sequence device unread with
  | zero => exact ⟨unread, rfl, rfl⟩
  | succ turns ih =>
    have hall : Sendable (unread ++ [discoverAck session_id sequence]) := by
      intro packet hmem
      rcases List.mem_append.mp hmem with hmem | hmem
      · exact hsend packet hmem
      · obtain rfl := List.mem_singleton.mp hmem
        show 2 ≤ 128
        omega
    cases hqueue : unread ++ [discoverAck session_id sequence] with
    | nil => simp at hqueue
    | cons oldest rest =>
      have hlength := congrArg List.length hqueue
      simp only [List.length_append, List.length_cons, List.length_nil] at hlength
      rw [hqueue] at hall
      rw [wait_loop_turn answers turns sequence device (hall oldest (by simp)) hqueue]
      cases check_ack UPDATE_CMD_DISCOVER session_id sequence oldest with
      | ok => exact ⟨rest, by omega, rfl⟩
      | error error =>
        obtain ⟨left, hleft, hport⟩ := ih (sequence + 1)
          (answer (encoded (discoverPacket session_id sequence)) device).2
          (fun packet hmem => hall packet (List.mem_cons_of_mem _ hmem))
        exact ⟨left, by omega, hport⟩

/-- With nothing unread, the first turn reads its own answer. -/
theorem wait_loop_clear (answers : AnswersDiscover answer) (turns : Nat) (sequence : UInt32)
    (device : σ) :
    wait_loop answer session_id (turns + 1) sequence [] device =
      ⟨.ok (), [], (answer (encoded (discoverPacket session_id sequence)) device).2⟩ := by
  have hfits : (discoverAck session_id sequence).payload_len.toNat ≤ 128 := by
    show 2 ≤ 128
    omega
  have hqueue : [] ++ [discoverAck session_id sequence] = [discoverAck session_id sequence] := rfl
  have hturn := wait_loop_turn answers turns sequence device hfits hqueue
  rw [check_discoverAck] at hturn
  exact hturn

end

/-! ## Late acknowledgements -/

/-- The ACK of an earlier request that nothing has read. -/
structure StaleAck where
  command : UInt8
  status : UpdateStatus
  session_id : UInt32
  sequence : UInt32
deriving DecidableEq, Repr

def StaleAck.packet (ack : StaleAck) : UpdatePacket :=
  ackPacket ack.command ack.status ack.session_id ack.sequence

theorem sendable_stale (stale : List StaleAck) : Sendable (stale.map StaleAck.packet) := by
  intro packet hmem
  obtain ⟨ack, -, rfl⟩ := List.mem_map.mp hmem
  show 2 ≤ 128
  omega

section
variable {σ : Type} (answer : List UInt8 → σ → List UInt8 × σ)

/-- With these ACKs unread, the wait succeeds within two turns more than there are
ACKs, and leaves none unread: what the tool reads next is what arrives next. -/
def SurvivesLate (session_id : UInt32) (stale : List StaleAck) (device : σ) : Prop :=
  ∀ turns, stale.length + 2 ≤ turns →
    let waited := wait_for_bootloader answer session_id turns
      (queued (stale.map StaleAck.packet)) device
    waited.result = .ok () ∧ waited.port = [] ∧
      ∀ ack : UpdatePacket, ack.payload_len.toNat ≤ 128 →
        read_packet (waited.port ++ encoded ack) = (.ok ack, [])

variable {answer}

/-- An ACK that was unread leaves one unread: every turn reads one and causes one. -/
theorem survives_late_clear (answers : AnswersDiscover answer) {session_id : UInt32}
    {stale : List StaleAck} {device : σ} (survives : SurvivesLate answer session_id stale device) :
    stale = [] := by
  obtain ⟨left, hleft, hport⟩ := wait_loop_unread answers
    (stale.length + 2) 0 device (sendable_stale stale)
  have hclear := (survives (stale.length + 2) (Nat.le_refl _)).2.1
  unfold wait_for_bootloader at hclear
  rw [hclear] at hport
  have hnone := queued_eq_nil.mp hport.symm
  rw [hnone, List.length_map] at hleft
  exact List.length_eq_zero_iff.mp hleft.symm

/-- The tool survives late ACKs exactly when there are none. -/
theorem survives_late_iff (answers : AnswersDiscover answer) (session_id : UInt32)
    (stale : List StaleAck) (device : σ) :
    SurvivesLate answer session_id stale device ↔ stale = [] := by
  constructor
  · exact survives_late_clear answers
  · rintro rfl turns hturns
    obtain ⟨turns, rfl⟩ : ∃ k, turns = k + 1 := ⟨turns - 1, by simp at hturns; omega⟩
    have hwait : wait_for_bootloader answer session_id (turns + 1) (queued []) device = _ :=
      wait_loop_clear answers turns 0 device
    rw [List.map_nil, hwait]
    refine ⟨rfl, rfl, ?_⟩
    intro ack hfits
    have hread := read_packet_encoded hfits []
    rwa [List.append_nil] at hread

end

/-- The bootloader of a fresh F446 board, and nothing unread. -/
theorem survives_late_fresh :
    let environment : Environment := fun _ => (driver .F446 noFault, .Completes)
    SurvivesLate (bootloader .F446 environment) 7 [] freshWorld :=
  (survives_late_iff (bootloader_answers _ _) 7 [] freshWorld).mpr rfl

/-- One ACK of an earlier ENTER_UPDATE is enough: the tool stays one ACK behind. -/
theorem late_enter_update_stays :
    let environment : Environment := fun _ => (driver .F446 noFault, .Completes)
    ¬ SurvivesLate (bootloader .F446 environment) 7 [⟨UPDATE_CMD_ENTER_UPDATE, .Ok, 7, 0⟩]
      freshWorld := by
  intro environment survives
  cases survives_late_clear (bootloader_answers .F446 environment) survives

end stm32_vibe.host_port
