-- The port of the tool over CAN: frames of the adapter, joined to packets, read as
-- bytes. However the serial line cuts them and whatever else is on the bus, the tool
-- reads the packets that the device sends, each once and in order.
import Stm32Vibe.CanTransmit
import Stm32Vibe.PortReads
import Stm32Vibe.UsbCan

namespace stm32_vibe.can_port

open little_endian update_protocol update_can can_transport uart_update host_can can_transmit
  polled_source stream_scanner port_reads
open usb_can hiding CanFrame
open host_port hiding read_exact read_after_sync read_packet_loop read_packet expect_ack
open update_loop (UPDATE_CAN_MAX_NODE_ID ackPacket)

/-! ## The adapter -/

/-- The parser has taken all that it can of its buffer. -/
def Settled (parser : FrameParser) : Prop := parser.feed [] = ([], parser)

/-- `UsbCanA`, with what each read of its serial port is going to give, and the bytes
that were written to it. -/
structure UsbCanA where
  serial : List (List UInt8)
  written : List UInt8
  parser : FrameParser
  received : List usb_can.CanFrame
  settled : Settled parser

theorem parser_feed (parser : FrameParser) (data : List UInt8) :
    parser.feed data =
      ((scan (ofTurn parseTurn_bounded parseTurn_stable) (parser.buffer ++ data)).1,
        ⟨(scan (ofTurn parseTurn_bounded parseTurn_stable) (parser.buffer ++ data)).2⟩) := by
  rw [← whileLoop_eq]
  rfl

theorem feed_settled (parser : FrameParser) (data : List UInt8) :
    Settled (parser.feed data).2 := by
  unfold Settled
  rw [parser_feed parser data, parser_feed, List.append_nil, scan_wait _ (scan_rest _ _)]

theorem init_settled : Settled .init := by
  unfold Settled
  rw [parser_feed, List.append_nil]
  exact congrArg (fun out : List usb_can.CanFrame × List UInt8 =>
    (out.1, FrameParser.mk out.2)) (scan_nil _)

/-- `UsbCanA(port, bitrate, mode)`, or the text of the `ValueError`. What the port gives
before its second reset is lost. -/
def UsbCanA.init (bitrate mode : Int) (serial : List (List UInt8)) : Except String UsbCanA :=
  (encode_settings bitrate mode).map fun settings =>
    { serial, written := settings, parser := .init, received := [], settled := init_settled }

/-- What `send` writes, or the text of the `ValueError`. -/
def UsbCanA.send (adapter : UsbCanA) (frame : usb_can.CanFrame) : Except String UsbCanA :=
  (encode_frame frame).map fun bytes => { adapter with written := adapter.written ++ bytes }

def UsbCanA.reset_input_buffer (adapter : UsbCanA) (serial : List (List UInt8)) : UsbCanA :=
  { adapter with serial, parser := .init, received := [], settled := init_settled }

/-- One read of the serial port. -/
def UsbCanA.fetch (adapter : UsbCanA) : UsbCanA where
  serial := adapter.serial.tail
  written := adapter.written
  parser := (adapter.parser.feed (adapter.serial.headD [])).2
  received := adapter.received ++ (adapter.parser.feed (adapter.serial.headD [])).1
  settled := feed_settled adapter.parser (adapter.serial.headD [])

def UsbCanA.popleft (adapter : UsbCanA) : Option usb_can.CanFrame × UsbCanA :=
  (adapter.received.head?, { adapter with received := adapter.received.tail })

/-- The loop of `receive`, with the turns that its deadline leaves. -/
def receive_loop : Nat → UsbCanA → Option usb_can.CanFrame × UsbCanA
  | 0, adapter => (none, adapter)
  | turns + 1, adapter =>
    let adapter := adapter.fetch
    if adapter.received ≠ [] then adapter.popleft else receive_loop turns adapter

def UsbCanA.receive (adapter : UsbCanA) (turns : Nat) : Option usb_can.CanFrame × UsbCanA :=
  if adapter.received ≠ [] then adapter.popleft else receive_loop turns adapter

/-! ## The port -/

/-- `CanPacketPort`. -/
structure CanPacketPort where
  adapter : UsbCanA
  request_id : Int
  reassembler : PacketReassembler
  read_buffer : List UInt8

def REQUEST_BASE_ID : Int := 0x600
def RESPONSE_BASE_ID : Int := 0x680

def CanPacketPort.init (adapter : UsbCanA) (node_id : Int) : Except ToolError CanPacketPort :=
  if node_id < 0 ∨ node_id > 0x7F then
    .error (.ValueError "CAN node ID must be between 0 and 127")
  else
    .ok
      { adapter
        request_id := REQUEST_BASE_ID + node_id
        reassembler := host_can.init (RESPONSE_BASE_ID + node_id)
        read_buffer := [] }

/-- A frame of `fragment_packet` as the adapter sends it. -/
def usbFrame (frame : HostFrame) : usb_can.CanFrame where
  can_id := frame.can_id
  data := frame.data
  extended := false
  remote := false

/-- The loop of `write`: the frames before one that raises are sent. -/
def send_frames : List HostFrame → UsbCanA → Except ToolError Unit × UsbCanA
  | [], adapter => (.ok (), adapter)
  | frame :: frames, adapter =>
    match adapter.send (usbFrame frame) with
    | .error message => (.error (.ValueError message), adapter)
    | .ok adapter => send_frames frames adapter

def CanPacketPort.write (packet : List UInt8) (port : CanPacketPort) :
    Except ToolError Nat × CanPacketPort :=
  match fragment_packet packet port.request_id with
  | .error error => (.error error, port)
  | .ok frames =>
    let sent := send_frames frames port.adapter
    (sent.1.map fun _ => packet.length, { port with adapter := sent.2 })

/-- A frame of the adapter as `PacketReassembler.feed` looks at it. -/
def hostFrame (frame : usb_can.CanFrame) : HostFrame where
  can_id := frame.can_id
  data := frame.data

/-- A packet into the empty buffer, if the next frame completes one. -/
def CanPacketPort.refill (port : CanPacketPort) (turns : Nat) : CanPacketPort :=
  let got := port.adapter.receive turns
  let fed := got.1.elim (none, port.reassembler) fun frame =>
    host_can.feed port.reassembler (hostFrame frame)
  { port with adapter := got.2, reassembler := fed.2, read_buffer := fed.1.getD [] }

def CanPacketPort.read (size turns : Nat) (port : CanPacketPort) : List UInt8 × CanPacketPort :=
  let port := if port.read_buffer = [] then port.refill turns else port
  (port.read_buffer.take size, { port with read_buffer := port.read_buffer.drop size })

/-- `reset_input_buffer`, with what the serial port is going to give. -/
def CanPacketPort.reset_input_buffer (port : CanPacketPort) (serial : List (List UInt8)) :
    CanPacketPort :=
  { port with
    adapter := port.adapter.reset_input_buffer serial
    reassembler := host_can.reset port.reassembler
    read_buffer := [] }

/-! ## What is still to come -/

/-- The frames that the adapter is going to give. -/
def UsbCanA.frames (adapter : UsbCanA) : List usb_can.CanFrame :=
  adapter.received ++ (adapter.parser.feedAll adapter.serial).1

/-- The packets that a reassembler makes of some frames. -/
def packetsOf (reassembler : PacketReassembler) (frames : List HostFrame) : List (List UInt8) :=
  (lockstep.outputs host_can.feed reassembler frames).filterMap id

def CanPacketPort.upcoming (port : CanPacketPort) : List UInt8 :=
  port.read_buffer ++ (packetsOf port.reassembler (port.adapter.frames.map hostFrame)).flatten

/-- The serial reads and the frames that are left. -/
def UsbCanA.work (adapter : UsbCanA) : Nat := adapter.serial.length + adapter.frames.length

theorem fetch_frames (adapter : UsbCanA) : adapter.fetch.frames = adapter.frames := by
  obtain ⟨serial, written, parser, received, settled⟩ := adapter
  cases serial with
  | nil =>
    have hsame : parser.feed [] = ([], parser) := settled
    change received ++ (parser.feed []).1 ++ ((parser.feed []).2.feedAll []).1 = _
    rw [hsame, List.append_nil]
    rfl
  | cons chunk serial => exact List.append_assoc _ _ _

theorem popleft_frames {adapter : UsbCanA} (h : adapter.received ≠ []) :
    ∃ frame, adapter.popleft.1 = some frame ∧
      adapter.frames = frame :: adapter.popleft.2.frames ∧
      adapter.popleft.2.serial = adapter.serial := by
  obtain ⟨frame, received, hreceived⟩ := List.exists_cons_of_ne_nil h
  refine ⟨frame, ?_, ?_, rfl⟩
  · rw [UsbCanA.popleft, hreceived]
    rfl
  · unfold UsbCanA.frames UsbCanA.popleft
    rw [hreceived]
    rfl

/-- What `receive` gives is the next frame. Where it gives none, it has read from the
serial port. -/
theorem receive_loop_frames (turns : Nat) {adapter : UsbCanA} (hnone : adapter.received = []) :
    let out := receive_loop turns adapter
    out.1.toList ++ out.2.frames = adapter.frames ∧ out.2.serial.length ≤ adapter.serial.length ∧
      (out.1 = none → out.2.received = [] ∧ out.2.serial = adapter.serial.drop turns) := by
  induction turns generalizing adapter with
  | zero => exact ⟨rfl, Nat.le_refl _, fun _ => ⟨hnone, rfl⟩⟩
  | succ turns ih =>
    have hframes := fetch_frames adapter
    have hserial : adapter.fetch.serial = adapter.serial.tail := rfl
    rw [receive_loop]
    dsimp only
    by_cases hreceived : adapter.fetch.received = []
    · rw [if_neg (not_not.mpr hreceived)]
      obtain ⟨hkept, hle, hempty⟩ := ih hreceived
      refine ⟨hkept.trans hframes, hle.trans ?_, fun h => ⟨(hempty h).1, (hempty h).2.trans ?_⟩⟩
      · rw [hserial, List.length_tail]
        omega
      · rw [hserial, List.drop_tail]
    · rw [if_pos hreceived]
      obtain ⟨frame, hframe, hnext, hsame⟩ := popleft_frames hreceived
      refine ⟨?_, ?_, ?_⟩
      · rw [hframe, ← hframes, hnext]
        rfl
      · rw [hsame, hserial, List.length_tail]
        omega
      · rw [hframe]
        exact nofun

theorem receive_frames (turns : Nat) (adapter : UsbCanA) :
    let out := adapter.receive turns
    out.1.toList ++ out.2.frames = adapter.frames ∧ out.2.serial.length ≤ adapter.serial.length ∧
      (out.1 = none → 0 < turns → adapter.frames ≠ [] →
        out.2.serial.length < adapter.serial.length) := by
  unfold UsbCanA.receive
  by_cases hreceived : adapter.received = []
  · rw [if_neg (not_not.mpr hreceived)]
    obtain ⟨hkept, hle, hempty⟩ := @receive_loop_frames turns adapter hreceived
    refine ⟨hkept, hle, fun hnone hturns hframes => ?_⟩
    have hserial : adapter.serial ≠ [] := by
      intro hnil
      apply hframes
      rw [UsbCanA.frames, hreceived, hnil]
      rfl
    have hpositive := List.length_pos_iff.mpr hserial
    rw [(hempty hnone).2, List.length_drop]
    omega
  · rw [if_pos hreceived]
    obtain ⟨frame, hframe, hnext, hsame⟩ := popleft_frames hreceived
    refine ⟨?_, ?_, ?_⟩
    · rw [hframe, hnext]
      rfl
    · rw [hsame]
    · rw [hframe]
      exact nofun

theorem packetsOf_cons (reassembler : PacketReassembler) (frame : HostFrame)
    (frames : List HostFrame) :
    packetsOf reassembler (frame :: frames) =
      (host_can.feed reassembler frame).1.toList ++
        packetsOf (host_can.feed reassembler frame).2 frames := by
  rw [packetsOf, lockstep.outputs, packetsOf]
  cases (host_can.feed reassembler frame).1 <;> rfl

/-- The packet of a refill is the beginning of what is still to come. -/
theorem refill_upcoming {port : CanPacketPort} (hempty : port.read_buffer = []) (turns : Nat) :
    (port.refill turns).upcoming = port.upcoming ∧
      (port.refill turns).adapter.work ≤ port.adapter.work ∧
      (0 < turns → port.upcoming ≠ [] → (port.refill turns).adapter.work < port.adapter.work) := by
  obtain ⟨hkept, hle, hlt⟩ := receive_frames turns port.adapter
  have hcoming : port.upcoming =
      (packetsOf port.reassembler (port.adapter.frames.map hostFrame)).flatten := by
    rw [CanPacketPort.upcoming, hempty, List.nil_append]
  unfold CanPacketPort.refill
  generalize port.adapter.receive turns = got at hkept hle hlt ⊢
  obtain ⟨frame, adapter⟩ := got
  dsimp only at hkept hle hlt ⊢
  cases frame with
  | none =>
    rw [Option.toList_none, List.nil_append] at hkept
    refine ⟨?_, ?_, ?_⟩
    · rw [hcoming, ← hkept]
      rfl
    · unfold UsbCanA.work
      rw [← hkept]
      exact Nat.add_le_add_right hle _
    · intro hturns hmore
      have hframes : port.adapter.frames ≠ [] := by
        intro hnil
        apply hmore
        rw [hcoming, hnil]
        rfl
      unfold UsbCanA.work
      rw [← hkept]
      exact Nat.add_lt_add_right (hlt rfl hturns hframes) _
  | some frame =>
    rw [Option.toList_some, List.singleton_append] at hkept
    have hless : adapter.work < port.adapter.work := by
      unfold UsbCanA.work
      rw [← hkept, List.length_cons]
      omega
    refine ⟨?_, hless.le, fun _ _ => hless⟩
    rw [hcoming, ← hkept, List.map_cons, packetsOf_cons, List.flatten_append]
    unfold CanPacketPort.upcoming
    dsimp only [Option.elim_some]
    cases (host_can.feed port.reassembler (hostFrame frame)).1 <;> simp

/-- The port as a source of bytes. -/
def source : Source CanPacketPort UInt8 where
  poll := CanPacketPort.read
  upcoming := CanPacketPort.upcoming
  work port := port.adapter.work
  poll_le size turns port := by
    unfold CanPacketPort.read
    exact List.length_take_le _ _
  poll_upcoming size turns port := by
    unfold CanPacketPort.read
    dsimp only
    by_cases hempty : port.read_buffer = []
    · rw [if_pos hempty, ← (refill_upcoming hempty turns).1]
      unfold CanPacketPort.upcoming
      dsimp only
      rw [← List.append_assoc, List.take_append_drop]
    · rw [if_neg hempty]
      unfold CanPacketPort.upcoming
      dsimp only
      rw [← List.append_assoc, List.take_append_drop]
  work_le size turns port := by
    unfold CanPacketPort.read
    dsimp only
    by_cases hempty : port.read_buffer = []
    · rw [if_pos hempty]
      exact (refill_upcoming hempty turns).2.1
    · rw [if_neg hempty]
  work_lt size turns port hsize hturns hmore hnone := by
    unfold CanPacketPort.read at hnone ⊢
    dsimp only at hnone ⊢
    by_cases hempty : port.read_buffer = []
    · rw [if_pos hempty]
      exact (refill_upcoming hempty turns).2.2 hturns hmore
    · rw [if_neg hempty] at hnone
      have hpositive := List.length_pos_iff.mpr hempty
      have hlength := congrArg List.length hnone
      rw [List.length_take, List.length_nil] at hlength
      omega

/-! ## What a line carries -/

theorem finish_can_id (control : UInt8) (reassembler : PacketReassembler) :
    (host_can.finish control reassembler).2.can_id = reassembler.can_id := by
  unfold host_can.finish host_can.reset
  dsimp only
  split_ifs <;> rfl

theorem feed_can_id (reassembler : PacketReassembler) (frame : HostFrame) :
    (host_can.feed reassembler frame).2.can_id = reassembler.can_id := by
  obtain ⟨can_id, data⟩ := frame
  unfold host_can.feed
  cases data with
  | nil => split_ifs <;> rfl
  | cons control rest =>
    dsimp only
    split_ifs <;> first | rfl | exact finish_can_id control _

/-- The frames of other senders leave the reassembler as it is. -/
theorem packetsOf_filter (reassembler : PacketReassembler) (frames : List HostFrame) :
    packetsOf reassembler frames =
      packetsOf reassembler (frames.filter fun frame => frame.can_id = reassembler.can_id) := by
  induction frames generalizing reassembler with
  | nil => rfl
  | cons frame frames ih =>
    rw [packetsOf_cons]
    by_cases hown : frame.can_id = reassembler.can_id
    · rw [List.filter_cons_of_pos (by simpa using hown), packetsOf_cons, ih, feed_can_id]
    · have hforeign : host_can.feed reassembler frame = (none, reassembler) := by
        rw [host_can.feed, if_pos hown]
      rw [List.filter_cons_of_neg (by simpa using hown), hforeign]
      exact ih reassembler

/-- The frames of a line with the id of a device. -/
def ownFrames (can_id : UInt32) (pieces : List Piece) : List HostFrame :=
  ((pieces.flatMap Piece.frames).map hostFrame).filter fun frame =>
    frame.can_id = (can_id.toNat : Int)

theorem parsed_pieces {pieces : List Piece} {chunks : List (List UInt8)}
    (hchunks : chunks.flatten = pieces.flatMap Piece.bytes) :
    FrameParser.init.feedAll chunks = (pieces.flatMap Piece.frames, FrameParser.init) := by
  have hread : ∀ rest data, FrameParser.feed ⟨rest⟩ data =
      ((whileLoop parseTurn parseTurn_bounded (rest ++ data)).1,
        ⟨(whileLoop parseTurn parseTurn_bounded (rest ++ data)).2⟩) := fun _ _ => rfl
  exact feedEach_pieces parseTurn_bounded parseTurn_stable hread Piece.bytes_ne_nil
    parseTurn_piece pieces hchunks

theorem frames_le (pieces : List Piece) : (pieces.flatMap Piece.frames).length ≤ pieces.length := by
  induction pieces with
  | nil => exact Nat.le_refl 0
  | cons piece pieces ih =>
    rw [List.flatMap_cons, List.length_append, List.length_cons]
    have hone : piece.frames.length ≤ 1 := by
      cases piece
      · exact Nat.le_refl 1
      · exact Nat.zero_le 1
    omega

theorem queued_le {packets : List UpdatePacket} (hsend : Sendable packets) :
    (queued packets).length ≤ 148 * packets.length := by
  induction packets with
  | nil => exact Nat.le_refl 0
  | cons packet packets ih =>
    have hfits := hsend packet (List.mem_cons_self ..)
    have hrest := ih fun other hmem => hsend other (List.mem_cons_of_mem _ hmem)
    rw [queued_cons, List.length_append, length_encoded, List.length_cons]
    omega

/-- A frame that fits the bus. -/
def Standard (frame : CanFrame) : Prop := frame.id ≤ 0x7FF ∧ frame.dlc.toNat ≤ 8

/-- The bytes of a frame on the line. -/
def lineBytes (frame : CanFrame) : List UInt8 :=
  [0xAA, frameType (ofFrame frame).data.length false false] ++
    packed_fields.bytesOf 2 frame.id.toNat ++
    (ofFrame frame).data ++ [0x55]

theorem ofFrame_length {frame : CanFrame} (h : Standard frame) : (ofFrame frame).data.length ≤ 8 :=
  (List.length_take_le _ _).trans h.2

theorem encode_standard {frame : CanFrame} (h : Standard frame) :
    encode_frame (usbFrame (ofFrame frame)) = .ok (lineBytes frame) := by
  have hdata := ofFrame_length h
  have hid : frame.id.toNat ≤ 2047 := UInt32.le_iff_toNat_le.mp h.1
  unfold encode_frame usbFrame
  dsimp only
  rw [if_neg (by rw [MAX_CAN_DATA_LEN]; omega), if_neg]
  · rfl
  · change ¬ ((frame.id.toNat : Int) < 0 ∨ (frame.id.toNat : Int) > 0x7FF)
    omega

def linePiece (frame : CanFrame) (h : Standard frame) : Piece :=
  .can (usbFrame (ofFrame frame)) (lineBytes frame) (encode_standard h)

/-- Some frames on the line. -/
def line (frames : List CanFrame) (h : ∀ frame ∈ frames, Standard frame) : List Piece :=
  frames.pmap linePiece h

section
variable {frames : List CanFrame} (h : ∀ frame ∈ frames, Standard frame)

theorem line_frames :
    (line frames h).flatMap Piece.frames = frames.map fun frame => usbFrame (ofFrame frame) := by
  induction frames with
  | nil => rfl
  | cons frame frames ih =>
    exact congrArg (usbFrame (ofFrame frame) :: ·)
      (ih fun other hmem => h other (List.mem_cons_of_mem _ hmem))

theorem line_bytes : (line frames h).flatMap Piece.bytes = frames.flatMap lineBytes := by
  induction frames with
  | nil => rfl
  | cons frame frames ih =>
    exact congrArg (lineBytes frame ++ ·)
      (ih fun other hmem => h other (List.mem_cons_of_mem _ hmem))

theorem ownFrames_line {can_id : UInt32} (hid : ∀ frame ∈ frames, frame.id = can_id) :
    ownFrames can_id (line frames h) = frames.map ofFrame := by
  unfold ownFrames
  rw [line_frames, List.map_map, List.filter_eq_self.mpr]
  · rfl
  · intro frame hmem
    obtain ⟨frame, hframe, rfl⟩ := List.mem_map.mp hmem
    rw [← hid frame hframe]
    exact decide_eq_true rfl

end

/-- A packet that the tool takes. -/
def InRange (packet : List UInt8) : Prop := 20 ≤ packet.length ∧ packet.length ≤ 148

instance (packet : List UInt8) : Decidable (InRange packet) :=
  inferInstanceAs (Decidable (_ ∧ _))

theorem standard_firmware {can_id : UInt32} (hid : can_id ≤ 0x7FF) {packet : List UInt8}
    (h : InRange packet) :
    ∀ frame ∈ firmwareFrames can_id packet, Standard frame := by
  intro frame hmem
  obtain ⟨hown, -, hdlc⟩ :=
    (firmwareFrames_results h.1 h.2 hid update_can_reassembly_init).1 frame hmem
  exact ⟨hown.symm ▸ hid, hdlc⟩

/-! ## Reading what a device sends -/

/-- `send_frame_wait` as the bootloader calls it. -/
def sender (results : Nat → CanResult) (frame : CanFrame) : Bus → Bool × Bus :=
  send_frame_wait results frame CAN_TX_RETRY_LIMIT

/-- Whatever the device gets out of its packets, and whatever else is on the bus, the
tool reads the packets that got out whole, each once and in order: with deadlines that
leave a read for each byte, each part of the line and each frame, however the line is
cut. -/
theorem packets_read {node_id : UInt8} (hnode : node_id ≤ UPDATE_CAN_MAX_NODE_ID)
    (results : Nat → CanResult) {packets : List UpdatePacket} (hfits : Sendable packets)
    {bus : Bus} (hbus : bus.frames = []) {port : CanPacketPort}
    (hport : port.reassembler.can_id = ((update_can_response_id node_id).toNat : Int))
    {pieces : List Piece} {chunks : List (List UInt8)}
    (hchunks : chunks.flatten = pieces.flatMap Piece.bytes)
    (hown : ownFrames (update_can_response_id node_id) pieces =
      (sendPackets (sender results) (update_can_response_id node_id) (packets.map encoded)
        bus).2.frames.map ofFrame) :
    ∃ whole : List UpdatePacket, whole.Sublist packets ∧
      (sendPackets (sender results) (update_can_response_id node_id) (packets.map encoded)
        bus).1 = whole.map encoded ∧
      (Obliging results CAN_TX_RETRY_LIMIT → whole = packets) ∧
      ∀ reads : List Deadlines, reads.length = whole.length →
        (∀ deadlines ∈ reads,
          deadlines.Patient (148 * packets.length + chunks.length + pieces.length)) →
        let out := read_packets source reads (port.reset_input_buffer chunks)
        out.1 = whole.map .ok ∧ out.2.upcoming = [] := by
  have hsends : SendsOnce (sender results) := wait_sends_once results CAN_TX_RETRY_LIMIT
  have hid := response_id_le hnode
  have hlengths : ∀ packet ∈ packets.map encoded, 20 ≤ packet.length ∧ packet.length ≤ 148 := by
    intro packet hmem
    obtain ⟨packet, hpacket, rfl⟩ := List.mem_map.mp hmem
    have hpayload := hfits packet hpacket
    rw [length_encoded]
    omega
  obtain ⟨sent, hsent, hframes, hcompleted⟩ :=
    completed_sendPackets hsends hlengths hid update_can_reassembly_init bus
  rw [hbus, List.nil_append] at hsent
  obtain ⟨whole, hsub, hwhole⟩ :=
    List.sublist_map_iff.mp (@sendPackets_sublist (sender results)
      (update_can_response_id node_id) (packets.map encoded) bus)
  refine ⟨whole, hsub, hwhole, ?_, ?_⟩
  · intro hobliging
    have hall := @sendPackets_all (sender results) (update_can_response_id node_id)
      (fun frame bus => wait_obliging results hobliging frame bus) (packets.map encoded) bus
    apply hsub.eq_of_length
    have hlength := congrArg List.length (hwhole.symm.trans hall)
    rwa [List.length_map, List.length_map] at hlength
  · intro reads hreads hpatient
    have hadapter : (port.reset_input_buffer chunks).adapter.frames =
        pieces.flatMap Piece.frames := congrArg Prod.fst (parsed_pieces hchunks)
    have hupcoming : (port.reset_input_buffer chunks).upcoming = queued whole := by
      have hreset : (port.reset_input_buffer chunks).reassembler =
          host_can.init ((update_can_response_id node_id).toNat : Int) := by
        rw [← hport]
        rfl
      rw [CanPacketPort.upcoming, hreset, packetsOf_filter, hadapter]
      change [] ++ (packetsOf _ (ownFrames (update_can_response_id node_id) pieces)).flatten = _
      rw [hown, hsent]
      change (hostPackets _ sent).flatten = _
      rw [hostPackets_eq (together_init _) fun frame hmem => (hframes frame hmem).2, hcompleted,
        hwhole]
      rfl
    have hwholefits : Sendable whole := fun packet hmem => hfits packet (hsub.subset hmem)
    refine read_packets_queued hwholefits hreads ?_ hupcoming
    intro deadlines hmem
    apply (hpatient deadlines hmem).of_le
    have hbytes := queued_le hwholefits
    have hcount := hsub.length_le
    have hpieces := frames_le pieces
    have hdue : due source (port.reset_input_buffer chunks) =
        (queued whole).length + (chunks.length + (pieces.flatMap Piece.frames).length) := by
      rw [← hupcoming, ← hadapter]
      rfl
    rw [hdue]
    omega

theorem flatten_bytes (bytes : List UInt8) : (bytes.map fun byte => [byte]).flatten = bytes := by
  rw [← List.flatMap_def]
  exact List.flatMap_singleton' bytes

/-- A bus that takes every frame. -/
theorem sendFrames_ready (frames : List CanFrame) :
    (sendFrames (sender fun _ => .Ok) frames ⟨0, []⟩).2.frames = frames := by
  have hsends : SendsOnce (sender fun _ => .Ok) := wait_sends_once _ CAN_TX_RETRY_LIMIT
  have hobliging : Obliging (fun _ => .Ok) CAN_TX_RETRY_LIMIT := fun _ =>
    ⟨0, by decide, rfl, fun j hj => absurd hj (Nat.not_lt_zero j)⟩
  obtain ⟨n, hframes, hn⟩ := sendFrames_prefix hsends frames ⟨0, []⟩
  have hall := sendFrames_all (fun frame bus => wait_obliging _ hobliging frame bus) frames ⟨0, []⟩
  rcases hn with ⟨-, rfl⟩ | ⟨hfalse, -⟩
  · rw [hframes, List.nil_append, List.take_length]
  · exact absurd (hall.symm.trans hfalse) (by decide)

def smallAck : UpdatePacket := ackPacket UPDATE_CMD_DISCOVER .Ok 1 0

def smallPort : CanPacketPort where
  adapter :=
    { serial := [], written := [], parser := .init, received := [], settled := init_settled }
  request_id := 0x601
  reassembler := host_can.init 0x681
  read_buffer := []

theorem small_range : InRange (encoded smallAck) := by
  unfold InRange
  rw [length_encoded]
  exact ⟨by decide, by decide⟩

theorem small_standard :
    ∀ frame ∈ firmwareFrames (update_can_response_id 1) (encoded smallAck), Standard frame :=
  standard_firmware (by decide) small_range

/-- The ACK of node 1, with each byte of the line in a part of its own. -/
theorem packets_read_small :
    let pieces := line _ small_standard
    let chunks := (pieces.flatMap Piece.bytes).map fun byte => [byte]
    ∃ whole : List UpdatePacket, whole.Sublist [smallAck] ∧
      (sendPackets (sender fun _ => .Ok) (update_can_response_id 1) ([smallAck].map encoded)
        ⟨0, []⟩).1 = whole.map encoded ∧
      (Obliging (fun _ => .Ok) CAN_TX_RETRY_LIMIT → whole = [smallAck]) ∧
      ∀ reads : List Deadlines, reads.length = whole.length →
        (∀ deadlines ∈ reads,
          deadlines.Patient (148 * [smallAck].length + chunks.length + pieces.length)) →
        let out := read_packets source reads (smallPort.reset_input_buffer chunks)
        out.1 = whole.map .ok ∧ out.2.upcoming = [] := by
  intro pieces chunks
  have hid : update_can_response_id 1 ≤ 0x7FF := by decide
  have hframes := (firmwareFrames_results small_range.1 small_range.2 hid
    update_can_reassembly_init).1
  apply @packets_read 1 (by decide) (fun _ => .Ok) [smallAck] ?_ ⟨0, []⟩ rfl smallPort rfl pieces
    chunks ?_ ?_
  · intro packet hmem
    rw [List.mem_singleton.mp hmem]
    decide
  · exact flatten_bytes _
  · rw [ownFrames_line small_standard fun frame hmem => (hframes frame hmem).1]
    have hall := sendFrames_ready (firmwareFrames (update_can_response_id 1) (encoded smallAck))
    exact congrArg (List.map ofFrame) hall.symm

/-! ## Writing to a device -/

/-- Standard frames never raise. -/
theorem send_frames_line {frames : List CanFrame} (h : ∀ frame ∈ frames, Standard frame)
    (adapter : UsbCanA) :
    send_frames (frames.map ofFrame) adapter =
      (.ok (), { adapter with written := adapter.written ++ frames.flatMap lineBytes }) := by
  induction frames generalizing adapter with
  | nil => rw [List.flatMap_nil, List.append_nil]; rfl
  | cons frame frames ih =>
    have hsend : adapter.send (usbFrame (ofFrame frame)) =
        .ok { adapter with written := adapter.written ++ lineBytes frame } := by
      rw [UsbCanA.send, encode_standard (h frame (List.mem_cons_self ..))]
      rfl
    rw [List.map_cons, send_frames, hsend, List.flatMap_cons, ← List.append_assoc]
    exact ih (fun other hmem => h other (List.mem_cons_of_mem _ hmem)) _

/-- What `write` returns for a packet. -/
def writeResult (packet : List UInt8) : Except ToolError Nat :=
  if InRange packet then .ok packet.length
  else .error (.ValueError "update packet length is out of range")

/-- The frames of the packets that the tool takes. -/
def requestFrames (can_id : UInt32) (packets : List (List UInt8)) : List CanFrame :=
  (packets.filter fun packet => InRange packet).flatMap (firmwareFrames can_id)

/-- The port with more bytes on the line. -/
def CanPacketPort.wrote (port : CanPacketPort) (bytes : List UInt8) : CanPacketPort :=
  { port with adapter := { port.adapter with written := port.adapter.written ++ bytes } }

/-- A packet out of range is refused before a byte of it is written. -/
theorem write_refused {packet : List UInt8} (h : ¬ InRange packet) (port : CanPacketPort) :
    port.write packet =
      (.error (.ValueError "update packet length is out of range"), port) := by
  have hrefused : fragment_packet packet port.request_id =
      .error (.ValueError "update packet length is out of range") := by
    rw [fragment_packet, if_pos]
    unfold InRange at h
    unfold MIN_PACKET_SIZE MAX_PACKET_SIZE
    omega
  rw [CanPacketPort.write, hrefused]

section
variable {can_id : UInt32} (hid : can_id ≤ 0x7FF)
include hid

theorem standard_request (packets : List (List UInt8)) :
    ∀ frame ∈ requestFrames can_id packets, Standard frame := by
  intro frame hmem
  obtain ⟨packet, hpacket, hframe⟩ := List.mem_flatMap.mp hmem
  exact standard_firmware hid (by simpa using List.of_mem_filter hpacket) frame hframe

/-- From any state of the device, the packets come through. -/
theorem completed_request (reassembly : UpdateCanReassembly) (packets : List (List UInt8)) :
    completed can_id reassembly (requestFrames can_id packets) =
      packets.filter fun packet => InRange packet := by
  unfold requestFrames
  have hrange : ∀ packet ∈ packets.filter fun packet => InRange packet, InRange packet :=
    fun packet hmem => by simpa using List.of_mem_filter hmem
  generalize (packets.filter fun packet => InRange packet) = taken at hrange ⊢
  induction taken generalizing reassembly with
  | nil => rfl
  | cons packet taken ih =>
    obtain ⟨hleast, hmost⟩ := hrange packet (List.mem_cons_self ..)
    rw [List.flatMap_cons, completed_append, completed_whole hleast hmost hid,
      ih _ fun other hmem => hrange other (List.mem_cons_of_mem _ hmem)]
    rfl

theorem write_eq {port : CanPacketPort} (hport : port.request_id = (can_id.toNat : Int))
    (packet : List UInt8) :
    port.write packet =
      (writeResult packet, port.wrote ((requestFrames can_id [packet]).flatMap lineBytes)) := by
  by_cases hrange : InRange packet
  · rw [CanPacketPort.write, hport, fragment_packet_eq hrange.1 hrange.2 hid, writeResult,
      if_pos hrange, requestFrames, List.filter_cons_of_pos (by simpa using hrange)]
    dsimp only
    rw [send_frames_line (standard_firmware hid hrange)]
    rw [← hport, List.filter_nil, List.flatMap_cons, List.flatMap_nil, List.append_nil]
    rfl
  · rw [write_refused hrange, writeResult, if_neg hrange, requestFrames,
      List.filter_cons_of_neg (by simpa using hrange)]
    simp [CanPacketPort.wrote]

end

/-- One packet after the other. -/
def writes : List (List UInt8) → CanPacketPort → List (Except ToolError Nat) × CanPacketPort
  | [], port => ([], port)
  | packet :: packets, port =>
    let out := port.write packet
    let rest := writes packets out.2
    (out.1 :: rest.1, rest.2)

theorem writes_eq {can_id : UInt32} (hid : can_id ≤ 0x7FF) (packets : List (List UInt8))
    {port : CanPacketPort} (hport : port.request_id = (can_id.toNat : Int)) :
    writes packets port =
      (packets.map writeResult, port.wrote ((requestFrames can_id packets).flatMap lineBytes)) := by
  induction packets generalizing port with
  | nil => simp [writes, requestFrames, CanPacketPort.wrote]
  | cons packet packets ih =>
    have hsplit : requestFrames can_id (packet :: packets) =
        requestFrames can_id [packet] ++ requestFrames can_id packets := by
      unfold requestFrames
      rw [← List.flatMap_append, ← List.filter_append, List.singleton_append]
    rw [writes, write_eq hid hport]
    dsimp only
    rw [@ih (port.wrote _) hport, hsplit, List.flatMap_append]
    simp [CanPacketPort.wrote]

theorem request_id_le {node_id : UInt8} (h : node_id ≤ UPDATE_CAN_MAX_NODE_ID) :
    update_can_request_id node_id ≤ 0x7FF ∧
      ((update_can_request_id node_id).toNat : Int) = REQUEST_BASE_ID + node_id.toNat := by
  have hnode : node_id.toNat ≤ 127 := UInt8.le_iff_toNat_le.mp h
  have hvalue : (update_can_request_id node_id).toNat = 0x600 + node_id.toNat := by
    unfold update_can_request_id
    rw [UInt32.toNat_add, UInt8.toNat_toUInt32]
    change (0x600 + node_id.toNat) % 2 ^ 32 = _
    omega
  refine ⟨?_, ?_⟩
  · rw [UInt32.le_iff_toNat_le, hvalue]
    change 0x600 + node_id.toNat ≤ 2047
    omega
  · rw [hvalue, Nat.cast_add]
    rfl

/-- What the tool writes is the settings and the frames of the firmware for the packets in
range. Cut in any way it parses to these frames, and the device completes these packets, in
order and from any state. Any other packet raises and leaves nothing on the line. -/
theorem packets_written {bitrate mode : Int} {serial : List (List UInt8)} {adapter : UsbCanA}
    (hadapter : UsbCanA.init bitrate mode serial = .ok adapter) {node_id : UInt8}
    {port : CanPacketPort} (hport : CanPacketPort.init adapter node_id.toNat = .ok port)
    (packets : List (List UInt8)) (reassembly : UpdateCanReassembly) :
    let out := writes packets port
    let frames := requestFrames (update_can_request_id node_id) packets
    out.1 = packets.map writeResult ∧
      (∃ settings, encode_settings bitrate mode = .ok settings ∧
        out.2.adapter.written = settings ++ frames.flatMap lineBytes) ∧
      (∀ packet, ¬ InRange packet → out.2.write packet =
        (.error (.ValueError "update packet length is out of range"), out.2)) ∧
      (∀ chunks : List (List UInt8), chunks.flatten = out.2.adapter.written →
        FrameParser.init.feedAll chunks =
          (frames.map fun frame => usbFrame (ofFrame frame), FrameParser.init)) ∧
      completed (update_can_request_id node_id) reassembly frames =
        packets.filter fun packet => InRange packet := by
  intro out frames
  unfold CanPacketPort.init at hport
  split_ifs at hport with hrange
  cases hport
  have hnode : node_id ≤ UPDATE_CAN_MAX_NODE_ID := by
    rw [UInt8.le_iff_toNat_le]
    change node_id.toNat ≤ 127
    omega
  obtain ⟨hid, hrequest⟩ := request_id_le hnode
  have hout : out = _ := writes_eq hid packets hrequest.symm
  cases hsettings : encode_settings bitrate mode with
  | error message =>
    rw [UsbCanA.init, hsettings] at hadapter
    cases hadapter
  | ok settings =>
    rw [UsbCanA.init, hsettings] at hadapter
    cases hadapter
    have hwritten : out.2.adapter.written = settings ++ frames.flatMap lineBytes := by
      rw [hout]
      rfl
    refine ⟨congrArg Prod.fst hout, ⟨settings, rfl, hwritten⟩,
      fun packet hother => write_refused hother out.2, fun chunks hchunks => ?_,
      completed_request hid reassembly packets⟩
    have hstandard := standard_request hid packets
    rw [hwritten, ← line_bytes hstandard] at hchunks
    have hparsed := @parsed_pieces
      (.settings settings (encode_settings_frame hsettings) :: line _ hstandard) chunks hchunks
    rw [hparsed, List.flatMap_cons, line_frames]
    rfl

/-- A packet in range and one that is too short. -/
theorem packets_written_small : ∃ adapter port, UsbCanA.init 500000 0 [] = .ok adapter ∧
      CanPacketPort.init adapter (1 : UInt8).toNat = .ok port ∧
      let out := writes [List.replicate 20 0, List.replicate 19 0] port
      let frames := requestFrames (update_can_request_id 1)
        [List.replicate 20 0, List.replicate 19 0]
      out.1 = [List.replicate 20 0, List.replicate 19 0].map writeResult ∧
        (∃ settings, encode_settings 500000 0 = .ok settings ∧
          out.2.adapter.written = settings ++ frames.flatMap lineBytes) ∧
        (∀ packet, ¬ InRange packet → out.2.write packet =
          (.error (.ValueError "update packet length is out of range"), out.2)) ∧
        (∀ chunks : List (List UInt8), chunks.flatten = out.2.adapter.written →
          FrameParser.init.feedAll chunks =
            (frames.map fun frame => usbFrame (ofFrame frame), FrameParser.init)) ∧
        completed (update_can_request_id 1) update_can_reassembly_init frames =
          [List.replicate 20 0, List.replicate 19 0].filter fun packet => InRange packet := by
  refine ⟨_, _, rfl, rfl, ?_⟩
  exact @packets_written 500000 0 [] _ rfl 1 _ rfl _ update_can_reassembly_init

end stm32_vibe.can_port
