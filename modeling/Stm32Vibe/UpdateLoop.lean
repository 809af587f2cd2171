-- The update mode listens on two transports with one session. Whatever order
-- the bytes and the frames come in, the session handles the packets of each
-- transport one at a time, as if no other transport were there.
import Stm32Vibe.UpdateSession
import Stm32Vibe.UpdateStream
import Stm32Vibe.CanTransport

namespace stm32_vibe.update_loop

open little_endian boot_state boot_state_store boot_flash update_protocol update_session
  update_stream update_can can_transport

/-! ## The loop object -/

def BOOT_UPDATE_MAX_BYTES_PER_POLL : Nat := UPDATE_PROTOCOL_MAX_PACKET_SIZE * 2
def CAN_RX_FRAMES_PER_POLL : Nat := 32
def UPDATE_CAN_MAX_NODE_ID : UInt8 := 0x7F

/-- `boot_update_loop_t`. -/
structure BootUpdateLoop where
  stream : UpdateStream
  session : BootUpdateSession
  payload : Memory
  packets_received : UInt32
  parse_errors : UInt32
  tx_errors : UInt32

def boot_update_loop_init : BootUpdateLoop where
  stream := update_stream_init
  session := boot_update_session_init
  payload := fun _ => 0
  packets_received := 0
  parse_errors := 0
  tx_errors := 0

/-- `boot_can_update_loop_t`. -/
structure BootCanUpdateLoop where
  reassembly : UpdateCanReassembly
  node_id : UInt8
  initialized : Bool

/-- `boot_can_update_loop_init`, where `can_init` succeeds. -/
def boot_can_update_loop_init (node_id : UInt8) : Option BootCanUpdateLoop :=
  if node_id > UPDATE_CAN_MAX_NODE_ID then none
  else some { reassembly := update_can_reassembly_init, node_id, initialized := true }

/-- An ACK on its transport. -/
inductive Transmission where
  | Uart (bytes : List UInt8)
  | Can (frames : List CanFrame)
deriving DecidableEq, Repr

/-- What the polls read and write. `processed` counts the packets that the
session has seen: the flash and the saves may differ from one to the next. -/
structure World where
  loop : BootUpdateLoop
  can_loop : BootCanUpdateLoop
  copies : Copies
  slots : Slots
  saves : List (BootStateRecord × SaveOutcome)
  flash_calls : List FlashCall
  processed : Nat
  sent : List Transmission

/-- How the flash and the save behave while packet `k` is processed. -/
abbrev Environment := Nat → BootFlash × SaveOutcome

/-! ## The polls -/

def encode_ack (command : UInt8) (status : UpdateStatus) (session_id sequence : UInt32)
    (encoded_capacity : Nat) : Except UpdateStatus (List UInt8) :=
  update_protocol_encode
    { command := UPDATE_CMD_ACK
      flags := 0
      payload_len := 2
      session_id
      sequence
      payload := [command, status.code]
      length_payload := rfl }
    encoded_capacity

section
variable (board : Board) (environment : Environment)

/-- `boot_update_session_process(&loop->session, &packet)`. -/
def process (packet : UpdatePacket) (world : World) : UpdateStatus × World :=
  let out := boot_update_session_process board (environment world.processed).1
    (environment world.processed).2 packet
    { session := world.loop.session, copies := world.copies, slots := world.slots
      saves := world.saves, flash_calls := world.flash_calls }
  (out.1,
    { world with
      loop := { world.loop with session := out.2.session }
      copies := out.2.copies
      slots := out.2.slots
      saves := out.2.saves
      flash_calls := out.2.flash_calls
      processed := world.processed + 1 })

/-- `loop->packets_received++`. -/
def countPacket (world : World) : World :=
  { world with loop := { world.loop with packets_received := world.loop.packets_received + 1 } }

/-- `loop->parse_errors++`. -/
def countError (world : World) : World :=
  { world with loop := { world.loop with parse_errors := world.loop.parse_errors + 1 } }

/-- `uart_send` succeeds. -/
def send_uart_ack (command : UInt8) (status : UpdateStatus) (session_id sequence : UInt32)
    (world : World) : World :=
  match encode_ack command status session_id sequence UPDATE_PROTOCOL_MAX_PACKET_SIZE with
  | .error _ => { world with loop := { world.loop with tx_errors := world.loop.tx_errors + 1 } }
  | .ok encoded => { world with sent := world.sent ++ [.Uart encoded] }

/-- One round of the loop of `boot_update_loop_poll`. -/
def receiveByte (world : World) (byte : UInt8) : World :=
  let out := update_stream_feed world.loop.stream [byte] emptyPacket world.loop.payload
    UPDATE_PROTOCOL_MAX_PAYLOAD
  let world :=
    { world with loop := { world.loop with stream := out.stream, payload := out.payload } }
  if out.status = .Ok then
    let done := process board environment out.packet world
    send_uart_ack out.packet.command done.1 out.packet.session_id out.packet.sequence
      (countPacket done.2)
  else if out.status ≠ .BadLength then send_uart_ack 0 out.status 0 0 (countError world)
  else world

/-- The loop of `boot_update_loop_poll` with `left` rounds to go. `rx` is what
`uart_receive_byte` gives until it has no more. -/
def pollBytes : Nat → World → List UInt8 → World
  | 0, world, _ => world
  | _ + 1, world, [] => world
  | left + 1, world, byte :: rx => pollBytes left (receiveByte board environment world byte) rx

def boot_update_loop_poll (world : World) (rx : List UInt8) : World :=
  pollBytes board environment BOOT_UPDATE_MAX_BYTES_PER_POLL world rx

def boot_update_loop_process_encoded (encoded : List UInt8) (ack_capacity : Nat)
    (world : World) : Except UpdateStatus (List UInt8) × World :=
  let out := update_protocol_decode encoded emptyPacket world.loop.payload
    UPDATE_PROTOCOL_MAX_PAYLOAD
  let packet := out.2.1
  let world := { world with loop := { world.loop with payload := out.2.2 } }
  if out.1 ≠ .Ok then (encode_ack 0 out.1 0 0 ack_capacity, countError world)
  else
    let done := process board environment packet world
    (encode_ack packet.command done.1 packet.session_id packet.sequence ack_capacity,
      countPacket done.2)

/-- `can_send` succeeds for every frame. -/
def send_ack (node_id : UInt8) (ack : List UInt8) (world : World) : World :=
  match update_can_fragmenter_init (update_can_response_id node_id) ack with
  | none => world
  | some fragmenter => { world with sent := world.sent ++ [.Can (fragments fragmenter).1] }

/-- One round of the loop of `boot_can_update_loop_poll`. -/
def receiveFrame (world : World) (frame : CanFrame) : World :=
  let node_id := world.can_loop.node_id
  if frame.id ≠ update_can_request_id node_id then world
  else
    let out := update_can_reassembly_feed world.can_loop.reassembly frame
      (update_can_request_id node_id)
    let world := { world with can_loop := { world.can_loop with reassembly := out.2 } }
    match out.1.result with
    | .Complete encoded =>
      let done := boot_update_loop_process_encoded board environment encoded
        UPDATE_PROTOCOL_MAX_PACKET_SIZE world
      match done.1 with
      | .ok ack => send_ack node_id ack done.2
      | .error _ => done.2
    | _ => world

/-- The loop of `boot_can_update_loop_poll` with `left` rounds to go. `rx` is what
`can_receive` gives until it has no more. -/
def pollFrames : Nat → World → List CanFrame → World
  | 0, world, _ => world
  | _ + 1, world, [] => world
  | left + 1, world, frame :: rx => pollFrames left (receiveFrame board environment world frame) rx

def boot_can_update_loop_poll (world : World) (rx : List CanFrame) : World :=
  if world.can_loop.initialized = false then world
  else pollFrames board environment CAN_RX_FRAMES_PER_POLL world rx

/-- A poll of one transport, with what it reads. -/
inductive Poll where
  | Uart (rx : List UInt8) (few : rx.length ≤ BOOT_UPDATE_MAX_BYTES_PER_POLL)
  | Can (rx : List CanFrame) (few : rx.length ≤ CAN_RX_FRAMES_PER_POLL)

def World.poll (world : World) : Poll → World
  | .Uart rx _ => boot_update_loop_poll board environment world rx
  | .Can rx _ => boot_can_update_loop_poll board environment world rx

def World.run (world : World) (polls : List Poll) : World :=
  polls.foldl (World.poll board environment) world

end

/-! ## One transport alone -/

inductive Transport where
  | Uart
  | Can
deriving DecidableEq, Repr

/-- A packet or a parse error that completed on a transport. -/
abbrev Completion := Transport × Except UpdateStatus UpdatePacket

/-- What a poll reads, one byte or frame at a time. -/
inductive Input where
  | Byte (byte : UInt8)
  | Frame (frame : CanFrame)

def Poll.inputs : Poll → List Input
  | .Uart rx _ => rx.map .Byte
  | .Can rx _ => rx.map .Frame

/-- The results that the parser adds with `byte`, after `before`. -/
def uartCompletes (before : List UInt8) (byte : UInt8) : List (Except UpdateStatus UpdatePacket) :=
  (scan (before ++ [byte])).1.drop (scan before).1.length

/-- The result that the reassembly and the decoder give at `frame`, after `before`. -/
def canCompletes (can_id : UInt32) (before : List CanFrame) (frame : CanFrame) :
    List (Except UpdateStatus UpdatePacket) :=
  match (update_can_reassembly_feed (feedAll can_id update_can_reassembly_init before) frame
      can_id).1.result with
  | .Complete encoded => [decodeResult encoded]
  | _ => []

/-- The results of the CAN frames alone. -/
def canResults (can_id : UInt32) : List CanFrame → List CanFrame →
    List (Except UpdateStatus UpdatePacket)
  | _, [] => []
  | before, frame :: frames =>
    canCompletes can_id before frame ++ canResults can_id (before ++ [frame]) frames

/-- What completes on the two transports, in order. Each is read alone: a byte
counts for the bytes before it, and a frame for the frames before it. -/
def completions (can_id : UInt32) : List UInt8 → List CanFrame → List Input → List Completion
  | _, _, [] => []
  | bytes, frames, .Byte byte :: inputs =>
    (uartCompletes bytes byte).map (Transport.Uart, ·) ++
      completions can_id (bytes ++ [byte]) frames inputs
  | bytes, frames, .Frame frame :: inputs =>
    (canCompletes can_id frames frame).map (Transport.Can, ·) ++
      completions can_id bytes (frames ++ [frame]) inputs

/-- The ACK for a command. -/
def ackPacket (command : UInt8) (status : UpdateStatus) (session_id sequence : UInt32) :
    UpdatePacket where
  command := UPDATE_CMD_ACK
  flags := 0
  payload_len := 2
  session_id := session_id
  sequence := sequence
  payload := [command, status.code]
  length_payload := rfl

/-- A packet on its transport. -/
def transmit (node_id : UInt8) (transport : Transport) (packet : UpdatePacket) : Transmission :=
  match transport with
  | .Uart => .Uart (encoded packet)
  | .Can => .Can (fragments
      { packet := encoded packet, offset := 0, can_id := update_can_response_id node_id,
        fragment_index := 0 }).1

/-- What the session and the flash have come to, and the ACKs. -/
structure Handled where
  state : UpdateState
  processed : Nat
  sent : List Transmission

/-- One completion: a packet is processed, and its ACK has the status. A parse
error only has its ACK. -/
def handle (board : Board) (environment : Environment) (node_id : UInt8) (handled : Handled) :
    Completion → Handled
  | (transport, .ok packet) =>
    let out := boot_update_session_process board (environment handled.processed).1
      (environment handled.processed).2 packet handled.state
    { state := out.2
      processed := handled.processed + 1
      sent := handled.sent ++ [transmit node_id transport
        (ackPacket packet.command out.1 packet.session_id packet.sequence)] }
  | (transport, .error status) =>
    { handled with sent := handled.sent ++ [transmit node_id transport (ackPacket 0 status 0 0)] }

def World.handled (world : World) : Handled where
  state :=
    { session := world.loop.session
      copies := world.copies
      slots := world.slots
      saves := world.saves
      flash_calls := world.flash_calls }
  processed := world.processed
  sent := world.sent

/-! ## One round of a poll -/

theorem encode_ack_ok (command : UInt8) (status : UpdateStatus) (session_id sequence : UInt32) :
    encode_ack command status session_id sequence UPDATE_PROTOCOL_MAX_PACKET_SIZE =
      .ok (encoded (ackPacket command status session_id sequence)) := by
  have hlen : (ackPacket command status session_id sequence).payload_len.toNat = 2 := rfl
  apply @encode_ok (ackPacket command status session_id sequence)
  · rw [hlen]
    omega
  · rw [hlen, show UPDATE_PROTOCOL_MAX_PACKET_SIZE = 148 from rfl]
    omega

/-- The world reads the two transports: each half-built packet is that of its transport alone. -/
structure Listens (world : World) (node_id : UInt8) (bytes : List UInt8)
    (frames : List CanFrame) : Prop where
  buffer : world.loop.stream.buffer = (scan bytes).2
  reassembly : world.can_loop.reassembly =
    feedAll (update_can_request_id node_id) update_can_reassembly_init frames
  node : world.can_loop.node_id = node_id
  initialized : world.can_loop.initialized = true
  small : node_id ≤ UPDATE_CAN_MAX_NODE_ID

section
variable {board : Board} {environment : Environment} {world : World} {node_id : UInt8}
  {bytes : List UInt8} {frames : List CanFrame}

theorem send_uart_ack_handled (command : UInt8) (status : UpdateStatus)
    (session_id sequence : UInt32) (world : World) :
    send_uart_ack command status session_id sequence world =
      { world with sent := world.sent ++
          [transmit node_id .Uart (ackPacket command status session_id sequence)] } := by
  unfold send_uart_ack
  rw [encode_ack_ok]
  rfl

/-- A byte leaves the CAN side alone, and completes what the bytes complete. -/
theorem receiveByte_handled (h : Listens world node_id bytes frames) (byte : UInt8) :
    Listens (receiveByte board environment world byte) node_id (bytes ++ [byte]) frames ∧
      (receiveByte board environment world byte).handled =
        ((uartCompletes bytes byte).map (Transport.Uart, ·)).foldl
          (handle board environment node_id) world.handled := by
  have hwaiting : Waiting world.loop.stream.buffer := by
    rw [h.buffer]
    exact scan_waiting bytes
  have hspec := feed_spec hwaiting [byte] emptyPacket world.loop.payload
  have hmore : scan (bytes ++ [byte]) =
      ((scan bytes).1 ++ (scan (world.loop.stream.buffer ++ [byte])).1,
        (scan (world.loop.stream.buffer ++ [byte])).2) := by
    rw [h.buffer]
    exact scan_append bytes [byte]
  unfold uartCompletes
  rw [hmore]
  simp only [List.drop_left]
  unfold receiveByte
  generalize update_stream_feed world.loop.stream [byte] emptyPacket world.loop.payload
    UPDATE_PROTOCOL_MAX_PAYLOAD = out at hspec ⊢
  rcases hspec.outcome with ⟨hstatus, -, hscan⟩ | ⟨hstatus, k, hpos, hle, -, hscan⟩
  · have hnot : ¬ out.status = .Ok := by simp [hstatus]
    rw [if_neg hnot, if_neg (not_not.mpr hstatus), hscan]
    refine ⟨⟨?_, h.reassembly, h.node, h.initialized, h.small⟩, rfl⟩
    rw [hmore, hscan]
  · obtain rfl : k = 1 := by
      rw [List.length_singleton] at hle
      omega
    rw [List.take_succ_cons, List.take_zero] at hscan
    by_cases hok : out.status = .Ok
    · have hresult : out.result = .ok out.packet := by simp [update_stream.FeedOut.result, hok]
      rw [if_pos hok, hscan, hresult, send_uart_ack_handled]
      refine ⟨⟨?_, h.reassembly, h.node, h.initialized, h.small⟩, rfl⟩
      rw [hmore, hscan]
      rfl
    · have hresult : out.result = .error out.status := by simp [update_stream.FeedOut.result, hok]
      rw [if_neg hok, if_pos hstatus, hscan, hresult, send_uart_ack_handled]
      refine ⟨⟨?_, h.reassembly, h.node, h.initialized, h.small⟩, rfl⟩
      rw [hmore, hscan]
      rfl

theorem send_ack_handled (small : node_id ≤ UPDATE_CAN_MAX_NODE_ID) (command : UInt8)
    (status : UpdateStatus) (session_id sequence : UInt32) (world : World) :
    send_ack node_id (encoded (ackPacket command status session_id sequence)) world =
      { world with sent := world.sent ++
          [transmit node_id .Can (ackPacket command status session_id sequence)] } := by
  have hlength : (encoded (ackPacket command status session_id sequence)).length = 22 := by
    rw [length_encoded]
    rfl
  have hid : update_can_response_id node_id ≤ 0x7FF := by
    have hnode : node_id.toNat ≤ 127 := UInt8.le_iff_toNat_le.mp small
    have hsum : (update_can_response_id node_id).toNat = 0x680 + node_id.toNat := by
      unfold update_can_response_id
      rw [UInt32.toNat_add, UInt8.toNat_toUInt32]
      exact Nat.mod_eq_of_lt (by show 0x680 + node_id.toNat < 2 ^ 32; omega)
    rw [UInt32.le_iff_toNat_le, hsum]
    show _ ≤ 2047
    omega
  unfold send_ack
  rw [init_ok (by omega) (by omega) hid]
  rfl

theorem canCompletes_none {frame : CanFrame} {can_id : UInt32}
    (h : ∀ encoded, (update_can_reassembly_feed
      (feedAll can_id update_can_reassembly_init frames) frame can_id).1.result ≠
        .Complete encoded) : canCompletes can_id frames frame = [] := by
  unfold canCompletes
  split
  · rename_i encoded hcomplete
    exact absurd hcomplete (h encoded)
  · rfl

theorem feedAll_concat (can_id : UInt32) (reassembly : UpdateCanReassembly)
    (frames : List CanFrame) (frame : CanFrame) :
    feedAll can_id reassembly (frames ++ [frame]) =
      (update_can_reassembly_feed (feedAll can_id reassembly frames) frame can_id).2 := by
  simp [feedAll]

/-- An encoded packet is handled, and its ACK goes out on the CAN bus. -/
theorem process_encoded_handled (small : node_id ≤ UPDATE_CAN_MAX_NODE_ID)
    (bytes : List UInt8) (world : World) :
    let done := boot_update_loop_process_encoded board environment bytes
      UPDATE_PROTOCOL_MAX_PACKET_SIZE world
    ∃ ack, done.1 = .ok ack ∧
      (send_ack node_id ack done.2).loop.stream = world.loop.stream ∧
      (send_ack node_id ack done.2).can_loop = world.can_loop ∧
      (send_ack node_id ack done.2).handled =
        handle board environment node_id world.handled (.Can, decodeResult bytes) := by
  have hresult := decode_result bytes emptyPacket world.loop.payload
  intro done
  unfold done boot_update_loop_process_encoded
  dsimp only at hresult ⊢
  rw [← hresult]
  by_cases hok : (update_protocol_decode bytes emptyPacket world.loop.payload
      UPDATE_PROTOCOL_MAX_PAYLOAD).1 = .Ok
  · rw [if_neg (not_not.mpr hok), if_pos hok]
    refine ⟨_, encode_ack_ok _ _ _ _, ?_⟩
    rw [send_ack_handled small]
    exact ⟨rfl, rfl, rfl⟩
  · rw [if_pos hok, if_neg hok]
    refine ⟨_, encode_ack_ok _ _ _ _, ?_⟩
    rw [send_ack_handled small]
    exact ⟨rfl, rfl, rfl⟩

/-- A frame leaves the UART side alone, and completes what the frames complete. -/
theorem receiveFrame_handled (h : Listens world node_id bytes frames) (frame : CanFrame) :
    Listens (receiveFrame board environment world frame) node_id bytes (frames ++ [frame]) ∧
      (receiveFrame board environment world frame).handled =
        ((canCompletes (update_can_request_id node_id) frames frame).map
          (Transport.Can, ·)).foldl (handle board environment node_id) world.handled := by
  have hconcat := feedAll_concat (update_can_request_id node_id) update_can_reassembly_init frames
    frame
  unfold receiveFrame
  dsimp only
  rw [h.node, h.reassembly]
  by_cases hid : frame.id ≠ update_can_request_id node_id
  · -- a frame of another node is not even fed
    obtain ⟨hresult, -, hsame⟩ := feed_irrelevant
      (feedAll (update_can_request_id node_id) update_can_reassembly_init frames)
      fun hrelevant => hid hrelevant.1
    rw [if_pos hid, canCompletes_none hresult]
    refine ⟨⟨h.buffer, ?_, h.node, h.initialized, h.small⟩, rfl⟩
    rw [hconcat, hsame, h.reassembly]
  · rw [if_neg hid]
    unfold canCompletes
    cases hresult : (update_can_reassembly_feed (feedAll (update_can_request_id node_id)
        update_can_reassembly_init frames) frame (update_can_request_id node_id)).1.result with
    | None => exact ⟨⟨h.buffer, hconcat.symm, rfl, h.initialized, h.small⟩, rfl⟩
    | Error => exact ⟨⟨h.buffer, hconcat.symm, rfl, h.initialized, h.small⟩, rfl⟩
    | Complete encoded =>
      dsimp only
      obtain ⟨ack, hack, hstream, hcan, hhandled⟩ := @process_encoded_handled board environment
        node_id h.small encoded { world with can_loop :=
          { reassembly := (update_can_reassembly_feed (feedAll (update_can_request_id node_id)
              update_can_reassembly_init frames) frame (update_can_request_id node_id)).2
            node_id
            initialized := world.can_loop.initialized } }
      rw [hack]
      dsimp only
      refine ⟨⟨?_, ?_, ?_, ?_, h.small⟩, hhandled⟩
      · rw [hstream]
        exact h.buffer
      · rw [hcan]
        exact hconcat.symm
      · rw [hcan]
      · rw [hcan]
        exact h.initialized

/-! ## Any polls -/

theorem pollBytes_eq (left : Nat) (world : World) {rx : List UInt8} (few : rx.length ≤ left) :
    pollBytes board environment left world rx =
      rx.foldl (receiveByte board environment) world := by
  induction rx generalizing left world with
  | nil => cases left <;> rfl
  | cons byte rx ih =>
    cases left with
    | zero => simp at few
    | succ left => exact ih left _ (Nat.le_of_succ_le_succ few)

theorem pollFrames_eq (left : Nat) (world : World) {rx : List CanFrame} (few : rx.length ≤ left) :
    pollFrames board environment left world rx =
      rx.foldl (receiveFrame board environment) world := by
  induction rx generalizing left world with
  | nil => cases left <;> rfl
  | cons frame rx ih =>
    cases left with
    | zero => simp at few
    | succ left => exact ih left _ (Nat.le_of_succ_le_succ few)

/-- One byte or frame. -/
def receive (board : Board) (environment : Environment) (world : World) : Input → World
  | .Byte byte => receiveByte board environment world byte
  | .Frame frame => receiveFrame board environment world frame

/-- A poll receives what it reads, one at a time. -/
theorem poll_eq (h : world.can_loop.initialized = true) (poll : Poll) :
    world.poll board environment poll = poll.inputs.foldl (receive board environment) world := by
  cases poll with
  | Uart rx few =>
    rw [Poll.inputs, List.foldl_map]
    exact pollBytes_eq _ world few
  | Can rx few =>
    have hnot : ¬ world.can_loop.initialized = false := by simp [h]
    rw [Poll.inputs, List.foldl_map]
    exact (if_neg hnot).trans (pollFrames_eq _ world few)

def inputBytes (inputs : List Input) : List UInt8 :=
  inputs.filterMap fun
    | .Byte byte => some byte
    | .Frame _ => none

def inputFrames (inputs : List Input) : List CanFrame :=
  inputs.filterMap fun
    | .Byte _ => none
    | .Frame frame => some frame

theorem receiveAll_handled (h : Listens world node_id bytes frames) (inputs : List Input) :
    Listens (inputs.foldl (receive board environment) world) node_id (bytes ++ inputBytes inputs)
        (frames ++ inputFrames inputs) ∧
      (inputs.foldl (receive board environment) world).handled =
        (completions (update_can_request_id node_id) bytes frames inputs).foldl
          (handle board environment node_id) world.handled := by
  induction inputs generalizing world bytes frames with
  | nil => simpa [inputBytes, inputFrames, completions] using h
  | cons input inputs ih =>
    cases input with
    | Byte byte =>
      obtain ⟨hlistens, hhandled⟩ :=
        @receiveByte_handled board environment world node_id bytes frames h byte
      obtain ⟨hrest, hall⟩ := ih hlistens
      rw [List.append_assoc] at hrest
      refine ⟨hrest, ?_⟩
      rw [completions, List.foldl_append, ← hhandled]
      exact hall
    | Frame frame =>
      obtain ⟨hlistens, hhandled⟩ :=
        @receiveFrame_handled board environment world node_id bytes frames h frame
      obtain ⟨hrest, hall⟩ := ih hlistens
      rw [List.append_assoc] at hrest
      refine ⟨hrest, ?_⟩
      rw [completions, List.foldl_append, ← hhandled]
      exact hall

theorem run_eq (h : Listens world node_id bytes frames) (polls : List Poll) :
    world.run board environment polls =
      (polls.flatMap Poll.inputs).foldl (receive board environment) world := by
  induction polls generalizing world bytes frames with
  | nil => rfl
  | cons poll polls ih =>
    have hpoll := @poll_eq board environment world h.initialized poll
    have hlistens :=
      (@receiveAll_handled board environment world node_id bytes frames h poll.inputs).1
    have hrest := ih hlistens
    rw [← hpoll] at hrest
    rw [List.flatMap_cons, List.foldl_append, ← hpoll, ← hrest]
    rfl

end

/-! ## Each transport in the completions -/

def ofTransport (transport : Transport) (done : List Completion) :
    List (Except UpdateStatus UpdatePacket) :=
  (done.filter fun completion => completion.1 = transport).map Prod.snd

theorem ofTransport_same (transport : Transport)
    (results : List (Except UpdateStatus UpdatePacket)) (done : List Completion) :
    ofTransport transport (results.map (transport, ·) ++ done) =
      results ++ ofTransport transport done := by
  simp [ofTransport, List.filter_map, Function.comp_def]

theorem ofTransport_other {transport other : Transport} (h : other ≠ transport)
    (results : List (Except UpdateStatus UpdatePacket)) (done : List Completion) :
    ofTransport transport (results.map (other, ·) ++ done) = ofTransport transport done := by
  simp [ofTransport, List.filter_map, Function.comp_def, h]

/-- The UART completions are what the parser gives on the bytes. -/
theorem uart_completions (can_id : UInt32) (bytes : List UInt8) (frames : List CanFrame)
    (inputs : List Input) :
    (scan bytes).1 ++ ofTransport .Uart (completions can_id bytes frames inputs) =
      (scan (bytes ++ inputBytes inputs)).1 := by
  induction inputs generalizing bytes frames with
  | nil => simp [completions, ofTransport, inputBytes]
  | cons input inputs ih =>
    cases input with
    | Byte byte =>
      have happend := congrArg Prod.fst (scan_append bytes [byte])
      have hcompletes : (scan bytes).1 ++ uartCompletes bytes byte =
          (scan (bytes ++ [byte])).1 := by
        unfold uartCompletes
        rw [happend]
        simp
      have hrest := ih (bytes ++ [byte]) frames
      rw [List.append_assoc] at hrest
      rw [completions, ofTransport_same, ← List.append_assoc, hcompletes, hrest]
      rfl
    | Frame frame =>
      rw [completions, ofTransport_other (by simp)]
      exact ih bytes (frames ++ [frame])

/-- The CAN completions are what the reassembly and the decoder give on the frames. -/
theorem can_completions (can_id : UInt32) (bytes : List UInt8) (frames : List CanFrame)
    (inputs : List Input) :
    ofTransport .Can (completions can_id bytes frames inputs) =
      canResults can_id frames (inputFrames inputs) := by
  induction inputs generalizing bytes frames with
  | nil => rfl
  | cons input inputs ih =>
    cases input with
    | Byte byte =>
      rw [completions, ofTransport_other (by simp)]
      exact ih (bytes ++ [byte]) frames
    | Frame frame =>
      rw [completions, ofTransport_same, ih bytes (frames ++ [frame])]
      rfl

/-- Every completion has one ACK. -/
theorem handle_sent (board : Board) (environment : Environment) (node_id : UInt8)
    (done : List Completion) (handled : Handled) :
    (done.foldl (handle board environment node_id) handled).sent.length =
      handled.sent.length + done.length := by
  induction done generalizing handled with
  | nil => rfl
  | cons completion done ih =>
    obtain ⟨transport, status | packet⟩ := completion
    all_goals
      rw [List.foldl_cons, ih]
      simp [handle]
      omega

/-! ## Two transports, one session -/

/-- Whatever the polls read from the two transports, and in whatever order, the
session handles what completes on each transport alone, one completion at a
time, and each completion has one ACK on its transport. -/
theorem polls_handled (board : Board) (environment : Environment) {world : World}
    {node_id : UInt8} (hloop : world.loop = boot_update_loop_init)
    (hcan : boot_can_update_loop_init node_id = some world.can_loop) (polls : List Poll) :
    let inputs := polls.flatMap Poll.inputs
    let can_id := update_can_request_id node_id
    let done := completions can_id [] [] inputs
    let final := (world.run board environment polls).handled
    final = done.foldl (handle board environment node_id) world.handled ∧
      ofTransport .Uart done = (scan (inputBytes inputs)).1 ∧
      ofTransport .Can done = canResults can_id [] (inputFrames inputs) ∧
      final.sent.length = world.sent.length + done.length := by
  have hnone : scan ([] : List UInt8) = ([], []) := waiting_nil
  have hlistens : Listens world node_id [] [] := by
    unfold boot_can_update_loop_init at hcan
    split_ifs at hcan with hlarge
    have hsame := Option.some.inj hcan
    refine ⟨?_, ?_, ?_, ?_, UInt8.not_lt.mp hlarge⟩
    · rw [hloop, hnone]
      rfl
    · rw [← hsame]
      rfl
    · rw [← hsame]
    · rw [← hsame]
  intro inputs can_id done final
  have hrun := @run_eq board environment world node_id [] [] hlistens polls
  have hhandled : final = done.foldl (handle board environment node_id) world.handled := by
    unfold final
    rw [hrun]
    exact (receiveAll_handled hlistens inputs).2
  refine ⟨hhandled, ?_, can_completions can_id [] [] inputs, ?_⟩
  · have huart := uart_completions can_id [] [] inputs
    rwa [hnone] at huart
  · rw [hhandled]
    exact handle_sent board environment node_id done world.handled

/-- Both loops after a reset, with nothing stored and both slots erased. -/
def freshWorld : World where
  loop := boot_update_loop_init
  can_loop := { reassembly := update_can_reassembly_init, node_id := 1, initialized := true }
  copies := erasedCopies
  slots := { a := imageOf [], b := imageOf [] }
  saves := []
  flash_calls := []
  processed := 0
  sent := []

def discover : UpdatePacket := { emptyPacket with command := UPDATE_CMD_DISCOVER }

/-- DISCOVER arrives in one poll of the UART. -/
def discoverPoll : Poll := .Uart (encoded discover) (by rw [length_encoded]; decide)

theorem polls_handled_discover :
    let environment : Environment := fun _ => (driver .F446 noFault, .Completes)
    let inputs := [discoverPoll].flatMap Poll.inputs
    let can_id := update_can_request_id 1
    let done := completions can_id [] [] inputs
    let final := (freshWorld.run .F446 environment [discoverPoll]).handled
    final = done.foldl (handle .F446 environment 1) freshWorld.handled ∧
      ofTransport .Uart done = (scan (inputBytes inputs)).1 ∧
      ofTransport .Can done = canResults can_id [] (inputFrames inputs) ∧
      final.sent.length = freshWorld.sent.length + done.length :=
  polls_handled .F446 (fun _ => (driver .F446 noFault, .Completes)) rfl rfl [discoverPoll]

end stm32_vibe.update_loop
