-- How the ACKs get onto the bus. A call of `can_send` may find all mailboxes full,
-- or the bus off, and an ACK may stop after some of its frames. Such a part never
-- completes at the receiver, so what the receiver gets is whole ACKs, in order.
import Stm32Vibe.HostCan
import Stm32Vibe.UpdateLoop

namespace stm32_vibe.can_transmit

open little_endian update_protocol update_can can_transport host_can update_loop

/-! ## One frame -/

/-- `can_result_t`. -/
inductive CanResult where
  | Ok
  | InvalidArgument
  | NotReady
  | TxFull
  | RxEmpty
  | BusOff
deriving DecidableEq, Repr

/-- How many calls of `can_send` there were, and the frames that it took. -/
structure Bus where
  calls : Nat
  frames : List CanFrame

def CAN_TX_RETRY_LIMIT : Nat := 100000

section
variable (results : Nat → CanResult)

/-- A frame goes out exactly when the call returns OK. -/
def can_send (frame : CanFrame) (bus : Bus) : CanResult × Bus :=
  (results bus.calls,
    { calls := bus.calls + 1
      frames := if results bus.calls = .Ok then bus.frames ++ [frame] else bus.frames })

/-- `send_frame_wait` of the bootloader, with `left` rounds to go. -/
def send_frame_wait (frame : CanFrame) : Nat → Bus → Bool × Bus
  | 0, bus => (false, bus)
  | left + 1, bus =>
    let (result, bus) := can_send results frame bus
    if result = .Ok then (true, bus)
    else if result ≠ .TxFull then (false, bus)
    else send_frame_wait frame left bus

/-- The inner loop of `send_can_ack` of the application, with `retry` retries to go. -/
def sendRetry (frame : CanFrame) : Nat → Bus → CanResult × Bus
  | 0, bus => can_send results frame bus
  | retry + 1, bus =>
    let (result, bus) := can_send results frame bus
    if result = .TxFull then sendRetry frame retry bus else (result, bus)

end

/-- The outer loop of both: the first frame that does not get out ends it. -/
def sendFrames (send : CanFrame → Bus → Bool × Bus) : List CanFrame → Bus → Bool × Bus
  | [], bus => (true, bus)
  | frame :: frames, bus =>
    let (sent, bus) := send frame bus
    if sent then sendFrames send frames bus else (false, bus)

/-- A way to send a frame: the frame goes out exactly once, or not at all. -/
def SendsOnce (send : CanFrame → Bus → Bool × Bus) : Prop :=
  ∀ frame bus, (send frame bus).2.frames =
    if (send frame bus).1 then bus.frames ++ [frame] else bus.frames

section
variable (results : Nat → CanResult)

theorem wait_sends_once (left : Nat) :
    SendsOnce (fun frame => send_frame_wait results frame left) := by
  intro frame bus
  induction left generalizing bus with
  | zero => rfl
  | succ left ih =>
    simp only [send_frame_wait, can_send]
    by_cases hok : results bus.calls = .Ok
    · simp [hok]
    · by_cases hfull : results bus.calls = .TxFull
      · have hnext := ih { calls := bus.calls + 1, frames := bus.frames }
        simpa [hfull] using hnext
      · simp [hok, hfull]

/-- The application tries once more than it has retries. -/
theorem sendRetry_eq (frame : CanFrame) (retry : Nat) (bus : Bus) :
    ((sendRetry results frame retry bus).1 = .Ok ↔
        (send_frame_wait results frame (retry + 1) bus).1 = true) ∧
      (sendRetry results frame retry bus).2 =
        (send_frame_wait results frame (retry + 1) bus).2 := by
  induction retry generalizing bus with
  | zero =>
    simp only [sendRetry, send_frame_wait, can_send]
    by_cases hok : results bus.calls = .Ok
    · simp [hok]
    · by_cases hfull : results bus.calls = .TxFull
      · simp [hfull]
      · simp [hok, hfull]
  | succ retry ih =>
    simp only [sendRetry]
    rw [send_frame_wait]
    simp only [can_send]
    by_cases hok : results bus.calls = .Ok
    · simp [hok]
    · by_cases hfull : results bus.calls = .TxFull
      · have hnext := ih { calls := bus.calls + 1, frames := bus.frames }
        simpa [hfull] using hnext
      · simp [hok, hfull]

theorem wait_succeeds {frame : CanFrame} {left k : Nat} {bus : Bus} (hk : k < left)
    (hok : results (bus.calls + k) = .Ok) (hfull : ∀ j < k, results (bus.calls + j) = .TxFull) :
    (send_frame_wait results frame left bus).1 = true := by
  induction left generalizing k bus with
  | zero => omega
  | succ left ih =>
    simp only [send_frame_wait, can_send]
    cases k with
    | zero =>
      rw [Nat.add_zero] at hok
      simp [hok]
    | succ k =>
      have hfirst : results bus.calls = .TxFull := hfull 0 (Nat.succ_pos k)
      have hnext := @ih k { calls := bus.calls + 1, frames := bus.frames } (by omega)
        (by show results (bus.calls + 1 + k) = .Ok; rw [← hok]; congr 1; omega)
        (fun j hj => by
          show results (bus.calls + 1 + j) = .TxFull
          rw [← hfull (j + 1) (by omega)]
          congr 1
          omega)
      simpa [hfirst] using hnext

/-- From any call on, the mailboxes are full for less than `limit` calls, and then
one is free. -/
def Obliging (limit : Nat) : Prop :=
  ∀ calls, ∃ k < limit, results (calls + k) = .Ok ∧ ∀ j < k, results (calls + j) = .TxFull

theorem wait_obliging {limit : Nat} (h : Obliging results limit) (frame : CanFrame) (bus : Bus) :
    (send_frame_wait results frame limit bus).1 = true := by
  obtain ⟨k, hk, hok, hfull⟩ := h bus.calls
  exact wait_succeeds results hk hok hfull

end

/-! ## The frames of one packet -/

section
variable {send : CanFrame → Bus → Bool × Bus}

/-- What gets out is all frames, or some first ones of them. -/
theorem sendFrames_prefix (h : SendsOnce send) (frames : List CanFrame) (bus : Bus) :
    ∃ n, (sendFrames send frames bus).2.frames = bus.frames ++ frames.take n ∧
      ((sendFrames send frames bus).1 = true ∧ n = frames.length ∨
        (sendFrames send frames bus).1 = false ∧ n < frames.length) := by
  induction frames generalizing bus with
  | nil => exact ⟨0, by simp [sendFrames], Or.inl ⟨rfl, rfl⟩⟩
  | cons frame frames ih =>
    have hframe := h frame bus
    simp only [sendFrames]
    by_cases hsent : (send frame bus).1 = true
    · obtain ⟨n, hn, hcase⟩ := ih (send frame bus).2
      rw [if_pos hsent] at hframe ⊢
      refine ⟨n + 1, ?_, ?_⟩
      · rw [hn, hframe, List.take_succ_cons, List.append_assoc, List.singleton_append]
      · rw [List.length_cons]
        exact hcase.imp (fun h => ⟨h.1, congrArg (· + 1) h.2⟩)
          (fun h => ⟨h.1, Nat.succ_lt_succ h.2⟩)
    · rw [if_neg hsent] at hframe ⊢
      refine ⟨0, ?_, Or.inr ⟨rfl, by simp⟩⟩
      rw [hframe, List.take_zero, List.append_nil]

theorem sendFrames_all (h : ∀ frame bus, (send frame bus).1 = true) (frames : List CanFrame)
    (bus : Bus) : (sendFrames send frames bus).1 = true := by
  induction frames generalizing bus with
  | nil => rfl
  | cons frame frames ih =>
    simp only [sendFrames, h, if_true]
    exact ih _

end

/-! ## What the receiver completes -/

/-- The packets that the reassembly completes on some frames. -/
def completed (can_id : UInt32) : UpdateCanReassembly → List CanFrame → List (List UInt8)
  | _, [] => []
  | reassembly, frame :: frames =>
    let out := update_can_reassembly_feed reassembly frame can_id
    match out.1.result with
    | .Complete packet => packet :: completed can_id out.2 frames
    | _ => completed can_id out.2 frames

section
variable {can_id : UInt32} {reassembly : UpdateCanReassembly}

theorem completed_append (frames more : List CanFrame) :
    completed can_id reassembly (frames ++ more) =
      completed can_id reassembly frames ++
        completed can_id (feedAll can_id reassembly frames) more := by
  induction frames generalizing reassembly with
  | nil => rfl
  | cons frame frames ih =>
    have hrest := @ih (update_can_reassembly_feed reassembly frame can_id).2
    unfold feedAll at *
    simp only [List.cons_append, completed, List.foldl_cons]
    cases hresult : (update_can_reassembly_feed reassembly frame can_id).1.result with
    | None => exact hrest
    | Error => exact hrest
    | Complete packet =>
      dsimp only
      rw [hrest]
      rfl

theorem completed_ownResults {frames : List CanFrame}
    (h : ∀ frame ∈ frames, frame.id = can_id) :
    completed can_id reassembly frames =
      (ownResults can_id reassembly frames).filterMap fun
        | .Complete packet => some packet
        | _ => none := by
  induction frames generalizing reassembly with
  | nil => rfl
  | cons frame frames ih =>
    have hrest := @ih (update_can_reassembly_feed reassembly frame can_id).2
      (fun other hmem => h other (List.mem_cons_of_mem _ hmem))
    rw [ownResults_own (h frame (List.mem_cons_self ..))]
    simp only [completed]
    cases hresult : (update_can_reassembly_feed reassembly frame can_id).1.result with
    | None => exact hrest
    | Error => exact hrest
    | Complete packet => exact congrArg (packet :: ·) hrest

theorem ownResults_append {frames : List CanFrame} (h : ∀ frame ∈ frames, frame.id = can_id)
    (more : List CanFrame) :
    ∃ rest, (ownResults can_id reassembly frames).length = frames.length ∧
      ownResults can_id reassembly (frames ++ more) =
        ownResults can_id reassembly frames ++ rest := by
  induction frames generalizing reassembly with
  | nil => exact ⟨_, rfl, rfl⟩
  | cons frame frames ih =>
    obtain ⟨rest, hlength, hrest⟩ := @ih (update_can_reassembly_feed reassembly frame can_id).2
      (fun other hmem => h other (List.mem_cons_of_mem _ hmem))
    have hid := h frame (List.mem_cons_self ..)
    refine ⟨rest, ?_, ?_⟩
    · rw [ownResults_own hid, List.length_cons, hlength, List.length_cons]
    · rw [List.cons_append, ownResults_own hid, ownResults_own hid, hrest, List.cons_append]

section
variable {packet : List UInt8} (hleast : 20 ≤ packet.length) (hfits : packet.length ≤ 148)
  (hid : can_id ≤ 0x7FF)
include hleast hfits hid

/-- The frames of a packet have the id of the sender, and the last one completes it. -/
theorem firmwareFrames_results (reassembly : UpdateCanReassembly) :
    (∀ frame ∈ firmwareFrames can_id packet, Relevant can_id frame) ∧
      0 < (firmwareFrames can_id packet).length ∧
      ownResults can_id reassembly (firmwareFrames can_id packet) =
        List.replicate ((firmwareFrames can_id packet).length - 1) .None ++
          [.Complete packet] := by
  obtain ⟨more, last, hframes, hgroup, hbytes, -, hrelevant⟩ :=
    firmwareFrames_group hleast hfits hid
  have hown : ((more ++ [last]).filter fun frame => frame.id = can_id) = more ++ [last] :=
    List.filter_eq_self.mpr fun frame hmem => by simpa using (hrelevant frame hmem).1
  have hresults := @ownResults_group can_id reassembly _ packet.length [] more last hgroup
    (Or.inl rfl) hown hrelevant
  rw [List.nil_append, hbytes] at hresults
  rw [hframes]
  refine ⟨hrelevant, by simp, ?_⟩
  rw [hresults]
  simp

/-- From any state of the receiver, the whole packet comes through. -/
theorem completed_whole :
    completed can_id reassembly (firmwareFrames can_id packet) = [packet] := by
  obtain ⟨hrelevant, -, hresults⟩ := firmwareFrames_results hleast hfits hid reassembly
  rw [completed_ownResults fun frame hmem => (hrelevant frame hmem).1, hresults]
  simp

/-- And a part of it gives nothing. -/
theorem completed_part {n : Nat} (hn : n < (firmwareFrames can_id packet).length) :
    completed can_id reassembly ((firmwareFrames can_id packet).take n) = [] := by
  obtain ⟨hrelevant, -, hresults⟩ := firmwareFrames_results hleast hfits hid reassembly
  have hpart : ∀ frame ∈ (firmwareFrames can_id packet).take n, frame.id = can_id :=
    fun frame hmem => (hrelevant frame (List.mem_of_mem_take hmem)).1
  obtain ⟨rest, hlength, hsplit⟩ := @ownResults_append can_id reassembly _ hpart
    ((firmwareFrames can_id packet).drop n)
  rw [List.take_append_drop, hresults] at hsplit
  rw [List.length_take, Nat.min_eq_left (Nat.le_of_lt hn)] at hlength
  have htake := congrArg (List.take n) hsplit
  rw [List.take_left' hlength, List.take_append_of_le_length (by simp; omega),
    List.take_replicate] at htake
  rw [completed_ownResults hpart, ← htake]
  simp

end

/-- What other nodes send changes nothing. -/
theorem completed_filter (frames : List CanFrame) :
    completed can_id reassembly frames =
      completed can_id reassembly (frames.filter fun frame => frame.id = can_id) := by
  induction frames generalizing reassembly with
  | nil => rfl
  | cons frame frames ih =>
    by_cases hid : frame.id = can_id
    · rw [List.filter_cons_of_pos (by simpa using hid)]
      simp only [completed]
      rw [ih]
    · rw [List.filter_cons_of_neg (by simpa using hid), ← ih]
      obtain ⟨hresult, -, hsame⟩ := feed_irrelevant reassembly
        fun hrelevant : Relevant can_id frame => hid hrelevant.1
      simp only [completed]
      rw [hsame]

end

/-! ## A row of packets -/

/-- The packets whose frames all get out, and the bus after all of them. -/
def sendPackets (send : CanFrame → Bus → Bool × Bus) (can_id : UInt32) :
    List (List UInt8) → Bus → List (List UInt8) × Bus
  | [], bus => ([], bus)
  | packet :: packets, bus =>
    let out := sendFrames send (firmwareFrames can_id packet) bus
    let rest := sendPackets send can_id packets out.2
    (if out.1 then packet :: rest.1 else rest.1, rest.2)

section
variable {send : CanFrame → Bus → Bool × Bus} {can_id : UInt32} {packets : List (List UInt8)}

theorem sendPackets_sublist (packets : List (List UInt8)) (bus : Bus) :
    (sendPackets send can_id packets bus).1.Sublist packets := by
  induction packets generalizing bus with
  | nil => exact .slnil
  | cons packet packets ih =>
    simp only [sendPackets]
    split
    · exact (ih _).cons_cons packet
    · exact (ih _).cons packet

theorem sendPackets_all (h : ∀ frame bus, (send frame bus).1 = true) (packets : List (List UInt8))
    (bus : Bus) : (sendPackets send can_id packets bus).1 = packets := by
  induction packets generalizing bus with
  | nil => rfl
  | cons packet packets ih =>
    simp only [sendPackets, sendFrames_all h, if_true]
    rw [ih]

/-- The receiver completes the packets whose frames all got out, and nothing else. -/
theorem completed_sendPackets (hsend : SendsOnce send)
    (hpackets : ∀ packet ∈ packets, 20 ≤ packet.length ∧ packet.length ≤ 148)
    (hid : can_id ≤ 0x7FF) (reassembly : UpdateCanReassembly) (bus : Bus) :
    ∃ sent, (sendPackets send can_id packets bus).2.frames = bus.frames ++ sent ∧
      (∀ frame ∈ sent, frame.id = can_id ∧ frame.dlc.toNat ≤ 8) ∧
      completed can_id reassembly sent = (sendPackets send can_id packets bus).1 := by
  induction packets generalizing reassembly bus with
  | nil => exact ⟨[], by simp [sendPackets], nofun, rfl⟩
  | cons packet packets ih =>
    obtain ⟨hleast, hfits⟩ := hpackets packet (List.mem_cons_self ..)
    obtain ⟨hrelevant, -⟩ := firmwareFrames_results hleast hfits hid reassembly
    obtain ⟨n, hn, hcase⟩ := sendFrames_prefix hsend (firmwareFrames can_id packet) bus
    obtain ⟨sent, hsent, hown, hcompleted⟩ :=
      ih (fun other hmem => hpackets other (List.mem_cons_of_mem _ hmem))
        (feedAll can_id reassembly ((firmwareFrames can_id packet).take n))
        (sendFrames send (firmwareFrames can_id packet) bus).2
    refine ⟨(firmwareFrames can_id packet).take n ++ sent, ?_, ?_, ?_⟩
    · simp only [sendPackets]
      rw [hsent, hn, List.append_assoc]
    · intro frame hmem
      rcases List.mem_append.mp hmem with hmem | hmem
      · have hframe := hrelevant frame (List.mem_of_mem_take hmem)
        exact ⟨hframe.1, hframe.2.2⟩
      · exact hown frame hmem
    · rw [completed_append, hcompleted]
      simp only [sendPackets]
      rcases hcase with ⟨hall, rfl⟩ | ⟨hcut, hlt⟩
      · rw [if_pos hall, List.take_length, completed_whole hleast hfits hid]
        rfl
      · rw [if_neg (by simp [hcut]), completed_part hleast hfits hid hlt]
        rfl

end

/-! ## The tool at the other end -/

/-- The packets that the tool's reassembler returns on the frames that it sees. -/
def hostPackets (reassembler : PacketReassembler) (frames : List CanFrame) : List (List UInt8) :=
  (lockstep.outputs host_can.feed reassembler (frames.map ofFrame)).filterMap id

theorem samePacket_none {out : update_can.FeedOut} {host_out : Option (List UInt8)}
    (h : SamePacket out host_out) (hnot : ∀ packet, out.result ≠ .Complete packet) :
    host_out = none :=
  Option.eq_none_iff_forall_ne_some.mpr fun packet hsome => hnot packet ((h packet).mpr hsome)

/-- The tool returns the packets that the firmware's reassembly would complete. -/
theorem hostPackets_eq {can_id : UInt32} {reassembly : UpdateCanReassembly}
    {reassembler : PacketReassembler} (h : Together can_id reassembly reassembler)
    {frames : List CanFrame} (hdlc : ∀ frame ∈ frames, frame.dlc.toNat ≤ 8) :
    hostPackets reassembler frames = completed can_id reassembly frames := by
  induction frames generalizing reassembly reassembler with
  | nil => rfl
  | cons frame frames ih =>
    obtain ⟨hsame, hnext⟩ :=
      together_feed h (⟨hdlc frame (List.mem_cons_self ..), rfl⟩ : SameFrame frame (ofFrame frame))
    have hrest := ih hnext fun other hmem => hdlc other (List.mem_cons_of_mem _ hmem)
    unfold hostPackets at *
    simp only [List.map_cons, lockstep.outputs, completed]
    cases hresult : (update_can_reassembly_feed reassembly frame can_id).1.result with
    | Complete packet =>
      rw [(hsame packet).mp hresult]
      exact congrArg (packet :: ·) hrest
    | None =>
      rw [samePacket_none hsame (by rw [hresult]; intro packet h; cases h)]
      exact hrest
    | Error =>
      rw [samePacket_none hsame (by rw [hresult]; intro packet h; cases h)]
      exact hrest

/-! ## The polls of the bootloader -/

/-- `uart_result_t`. -/
inductive UartResult where
  | Ok
  | InvalidArgument
  | NotReady
  | RxEmpty
  | TxFull
deriving DecidableEq, Repr

/-- What the calls of the two drivers return, in order. -/
structure Lines where
  uart_send : Nat → UartResult
  can_send : Nat → CanResult

/-- What went out: the data of the calls of `uart_send` that returned OK, and the bus. -/
structure Out where
  uart_calls : Nat
  uart : List (List UInt8)
  bus : Bus

/-- The state of the polls, where `sent` has the ACKs that they try to send. -/
structure Sending where
  world : World
  out : Out

section
variable (board : Board) (environment : Environment) (lines : Lines)

/-- The drivers are called for one ACK. -/
def transmission (out : Out) : Transmission → Out
  | .Uart bytes =>
    { out with
      uart_calls := out.uart_calls + 1
      uart := if lines.uart_send out.uart_calls = .Ok then out.uart ++ [bytes] else out.uart }
  | .Can frames =>
    { out with
      bus := (sendFrames (fun frame => send_frame_wait lines.can_send frame CAN_TX_RETRY_LIMIT)
        frames out.bus).2 }

def transmitting (sending : Sending) (ack : Transmission) : Sending where
  world := { sending.world with sent := sending.world.sent ++ [ack] }
  out := transmission lines sending.out ack

/-- `loop->tx_errors++`. -/
def countTxError (world : World) : World :=
  { world with loop := { world.loop with tx_errors := world.loop.tx_errors + 1 } }

def send_uart_ack (command : UInt8) (status : UpdateStatus) (session_id sequence : UInt32)
    (sending : Sending) : Sending :=
  match encode_ack command status session_id sequence UPDATE_PROTOCOL_MAX_PACKET_SIZE with
  | .error _ => { sending with world := countTxError sending.world }
  | .ok encoded =>
    let result := lines.uart_send sending.out.uart_calls
    let sending := transmitting lines sending (.Uart encoded)
    if result ≠ .Ok then { sending with world := countTxError sending.world } else sending

def receiveByte (sending : Sending) (byte : UInt8) : Sending :=
  let world := sending.world
  let out := update_stream.update_stream_feed world.loop.stream [byte] emptyPacket
    world.loop.payload UPDATE_PROTOCOL_MAX_PAYLOAD
  let world :=
    { world with loop := { world.loop with stream := out.stream, payload := out.payload } }
  if out.status = .Ok then
    let done := process board environment out.packet world
    send_uart_ack lines out.packet.command done.1 out.packet.session_id out.packet.sequence
      { sending with world := countPacket done.2 }
  else if out.status ≠ .BadLength then
    send_uart_ack lines 0 out.status 0 0 { sending with world := countError world }
  else { sending with world }

def pollBytes : Nat → Sending → List UInt8 → Sending
  | 0, sending, _ => sending
  | _ + 1, sending, [] => sending
  | left + 1, sending, byte :: rx =>
    pollBytes left (receiveByte board environment lines sending byte) rx

def send_ack (node_id : UInt8) (ack : List UInt8) (sending : Sending) : Sending :=
  match update_can_fragmenter_init (update_can_response_id node_id) ack with
  | none => sending
  | some fragmenter => transmitting lines sending (.Can (fragments fragmenter).1)

def receiveFrame (sending : Sending) (frame : CanFrame) : Sending :=
  let world := sending.world
  let node_id := world.can_loop.node_id
  if frame.id ≠ update_can_request_id node_id then sending
  else
    let out := update_can_reassembly_feed world.can_loop.reassembly frame
      (update_can_request_id node_id)
    let world := { world with can_loop := { world.can_loop with reassembly := out.2 } }
    match out.1.result with
    | .Complete encoded =>
      let done := boot_update_loop_process_encoded board environment encoded
        UPDATE_PROTOCOL_MAX_PACKET_SIZE world
      match done.1 with
      | .ok ack => send_ack lines node_id ack { sending with world := done.2 }
      | .error _ => { sending with world := done.2 }
    | _ => { sending with world }

def pollFrames : Nat → Sending → List CanFrame → Sending
  | 0, sending, _ => sending
  | _ + 1, sending, [] => sending
  | left + 1, sending, frame :: rx =>
    pollFrames left (receiveFrame board environment lines sending frame) rx

def Sending.poll (sending : Sending) : Poll → Sending
  | .Uart rx _ => pollBytes board environment lines BOOT_UPDATE_MAX_BYTES_PER_POLL sending rx
  | .Can rx _ =>
    if sending.world.can_loop.initialized = false then sending
    else pollFrames board environment lines CAN_RX_FRAMES_PER_POLL sending rx

def Sending.run (sending : Sending) (polls : List Poll) : Sending :=
  polls.foldl (Sending.poll board environment lines) sending

end

/-! ## Beside the polls whose ACKs all get out -/

/-- Only the count of the failed sends differs. -/
def withErrors (tx_errors : UInt32) (world : World) : World :=
  { world with loop := { world.loop with tx_errors } }

/-- The drivers were called for the ACKs in `sent`, in order. -/
def Tracks (lines : Lines) (first : Out) (sending : Sending) : Prop :=
  sending.out = sending.world.sent.foldl (transmission lines) first

section
variable {board : Board} {environment : Environment} {lines : Lines} {first : Out}
  {sending : Sending}

theorem tracks_transmitting (h : Tracks lines first sending) (ack : Transmission) :
    Tracks lines first (transmitting lines sending ack) := by
  unfold Tracks transmitting
  rw [List.foldl_append, ← h]
  rfl

theorem send_uart_ack_eq (command : UInt8) (status : UpdateStatus) (session_id sequence : UInt32)
    (h : Tracks lines first sending) :
    let after := send_uart_ack lines command status session_id sequence sending
    Tracks lines first after ∧ ∃ errors, after.world =
      withErrors errors (update_loop.send_uart_ack command status session_id sequence
        sending.world) := by
  have hsent := tracks_transmitting h
    (.Uart (encoded (ackPacket command status session_id sequence)))
  intro after
  unfold after send_uart_ack
  rw [encode_ack_ok, @send_uart_ack_handled 0]
  dsimp only
  split
  · exact ⟨hsent, _, rfl⟩
  · exact ⟨hsent, sending.world.loop.tx_errors, rfl⟩

/-- A byte does to the world what it does when all ACKs get out. -/
theorem receiveByte_eq (h : Tracks lines first sending) (byte : UInt8) :
    let after := receiveByte board environment lines sending byte
    Tracks lines first after ∧ ∃ errors, after.world =
      withErrors errors (update_loop.receiveByte board environment sending.world byte) := by
  intro after
  unfold after receiveByte update_loop.receiveByte
  dsimp only
  generalize update_stream.update_stream_feed sending.world.loop.stream [byte] emptyPacket
    sending.world.loop.payload UPDATE_PROTOCOL_MAX_PAYLOAD = out
  by_cases hok : out.status = .Ok
  · rw [if_pos hok, if_pos hok]
    exact send_uart_ack_eq _ _ _ _ h
  · rw [if_neg hok, if_neg hok]
    by_cases hlength : out.status ≠ .BadLength
    · rw [if_pos hlength, if_pos hlength]
      exact send_uart_ack_eq _ _ _ _ h
    · rw [if_neg hlength, if_neg hlength]
      exact ⟨h, sending.world.loop.tx_errors, rfl⟩

theorem send_ack_eq (node_id : UInt8) (ack : List UInt8) (h : Tracks lines first sending) :
    let after := send_ack lines node_id ack sending
    Tracks lines first after ∧ after.world = update_loop.send_ack node_id ack sending.world := by
  intro after
  unfold after send_ack update_loop.send_ack
  cases update_can_fragmenter_init (update_can_response_id node_id) ack with
  | none => exact ⟨h, rfl⟩
  | some fragmenter => exact ⟨tracks_transmitting h _, rfl⟩

/-- Only the caller sends. -/
theorem process_encoded_sent (encoded : List UInt8) (world : World) :
    (boot_update_loop_process_encoded board environment encoded UPDATE_PROTOCOL_MAX_PACKET_SIZE
      world).2.sent = world.sent := by
  unfold boot_update_loop_process_encoded
  dsimp only
  split <;> rfl

theorem receiveFrame_eq (h : Tracks lines first sending) (frame : CanFrame) :
    let after := receiveFrame board environment lines sending frame
    Tracks lines first after ∧
      after.world = update_loop.receiveFrame board environment sending.world frame := by
  intro after
  unfold after receiveFrame update_loop.receiveFrame
  dsimp only
  by_cases hid : frame.id ≠ update_can_request_id sending.world.can_loop.node_id
  · rw [if_pos hid, if_pos hid]
    exact ⟨h, rfl⟩
  · rw [if_neg hid, if_neg hid]
    cases (update_can_reassembly_feed sending.world.can_loop.reassembly frame
        (update_can_request_id sending.world.can_loop.node_id)).1.result with
    | None => exact ⟨h, rfl⟩
    | Error => exact ⟨h, rfl⟩
    | Complete encoded =>
      dsimp only
      have hsent := @process_encoded_sent board environment encoded
        { sending.world with can_loop :=
          { sending.world.can_loop with
            reassembly := (update_can_reassembly_feed sending.world.can_loop.reassembly frame
              (update_can_request_id sending.world.can_loop.node_id)).2 } }
      generalize boot_update_loop_process_encoded board environment encoded
        UPDATE_PROTOCOL_MAX_PACKET_SIZE _ = done at hsent ⊢
      have htracks : Tracks lines first { sending with world := done.2 } := by
        unfold Tracks
        rw [hsent]
        exact h
      cases done.1 with
      | ok ack => exact send_ack_eq _ _ htracks
      | error status => exact ⟨htracks, rfl⟩

/-- One byte or frame, with the results of the drivers. -/
def receive (board : Board) (environment : Environment) (lines : Lines) (sending : Sending) :
    Input → Sending
  | .Byte byte => receiveByte board environment lines sending byte
  | .Frame frame => receiveFrame board environment lines sending frame

theorem pollBytes_eq (left : Nat) (sending : Sending) {rx : List UInt8} (few : rx.length ≤ left) :
    pollBytes board environment lines left sending rx =
      rx.foldl (receiveByte board environment lines) sending := by
  induction rx generalizing left sending with
  | nil => cases left <;> rfl
  | cons byte rx ih =>
    cases left with
    | zero => exact absurd few (by simp)
    | succ left => exact ih left _ (Nat.le_of_succ_le_succ few)

theorem pollFrames_eq (left : Nat) (sending : Sending) {rx : List CanFrame}
    (few : rx.length ≤ left) :
    pollFrames board environment lines left sending rx =
      rx.foldl (receiveFrame board environment lines) sending := by
  induction rx generalizing left sending with
  | nil => cases left <;> rfl
  | cons frame rx ih =>
    cases left with
    | zero => exact absurd few (by simp)
    | succ left => exact ih left _ (Nat.le_of_succ_le_succ few)

/-- The world listens whatever count of failed sends it has. -/
theorem listens_errors {world : World} {node_id : UInt8} {bytes : List UInt8}
    {frames : List CanFrame} (h : Listens world node_id bytes frames) (errors : UInt32) :
    Listens (withErrors errors world) node_id bytes frames :=
  ⟨h.buffer, h.reassembly, h.node, h.initialized, h.small⟩

theorem handled_errors (errors : UInt32) (world : World) :
    (withErrors errors world).handled = world.handled := rfl

/-- Whatever the drivers return, the inputs are handled as when all ACKs get out. -/
theorem receiveAll_eq {node_id : UInt8} {bytes : List UInt8} {frames : List CanFrame}
    (h : Listens sending.world node_id bytes frames) (ht : Tracks lines first sending)
    (inputs : List Input) :
    let after := inputs.foldl (receive board environment lines) sending
    Listens after.world node_id (bytes ++ inputBytes inputs) (frames ++ inputFrames inputs) ∧
      Tracks lines first after ∧
      after.world.handled =
        (completions (update_can_request_id node_id) bytes frames inputs).foldl
          (handle board environment node_id) sending.world.handled := by
  induction inputs generalizing sending bytes frames with
  | nil => exact ⟨by simpa [inputBytes, inputFrames] using h, ht, rfl⟩
  | cons input inputs ih =>
    cases input with
    | Byte byte =>
      obtain ⟨hlistens, hhandled⟩ :=
        @receiveByte_handled board environment sending.world node_id bytes frames h byte
      obtain ⟨htracks, errors, hworld⟩ :=
        @receiveByte_eq board environment lines first sending ht byte
      have hnext := listens_errors hlistens errors
      have hsame : (receiveByte board environment lines sending byte).world.handled =
          (update_loop.receiveByte board environment sending.world byte).handled := by
        rw [hworld, handled_errors]
      rw [← hworld] at hnext
      obtain ⟨hrest, hout, hall⟩ := ih hnext htracks
      rw [List.append_assoc] at hrest
      refine ⟨hrest, hout, ?_⟩
      rw [completions, List.foldl_append, ← hhandled, ← hsame]
      exact hall
    | Frame frame =>
      obtain ⟨hlistens, hhandled⟩ :=
        @receiveFrame_handled board environment sending.world node_id bytes frames h frame
      obtain ⟨htracks, hworld⟩ :=
        @receiveFrame_eq board environment lines first sending ht frame
      rw [← hworld] at hlistens hhandled
      obtain ⟨hrest, hout, hall⟩ := ih hlistens htracks
      rw [List.append_assoc] at hrest
      refine ⟨hrest, hout, ?_⟩
      rw [completions, List.foldl_append, ← hhandled]
      exact hall

theorem run_eq {node_id : UInt8} {bytes : List UInt8} {frames : List CanFrame}
    (h : Listens sending.world node_id bytes frames) (ht : Tracks lines first sending)
    (polls : List Poll) :
    sending.run board environment lines polls =
      (polls.flatMap Poll.inputs).foldl (receive board environment lines) sending := by
  induction polls generalizing sending bytes frames with
  | nil => rfl
  | cons poll polls ih =>
    have hpoll : sending.poll board environment lines poll =
        poll.inputs.foldl (receive board environment lines) sending := by
      cases poll with
      | Uart rx few =>
        rw [Poll.inputs, List.foldl_map]
        exact pollBytes_eq _ sending few
      | Can rx few =>
        have hnot : ¬ sending.world.can_loop.initialized = false := by simp [h.initialized]
        rw [Poll.inputs, List.foldl_map]
        exact (if_neg hnot).trans (pollFrames_eq _ sending few)
    obtain ⟨hlistens, htracks, -⟩ :=
      @receiveAll_eq board environment lines first sending node_id bytes frames h ht poll.inputs
    have hrest := ih hlistens htracks
    rw [← hpoll] at hrest
    rw [List.flatMap_cons, List.foldl_append, ← hpoll, ← hrest]
    rfl

end

/-! ## The ACKs of the polls -/

/-- The ACK for a completion. -/
def ackOf (board : Board) (environment : Environment) (handled : Handled) :
    Completion → Transport × UpdatePacket
  | (transport, .ok packet) =>
    let out := update_session.boot_update_session_process board (environment handled.processed).1
      (environment handled.processed).2 packet handled.state
    (transport, ackPacket packet.command out.1 packet.session_id packet.sequence)
  | (transport, .error status) => (transport, ackPacket 0 status 0 0)

/-- The ACKs for some completions, handled one after the other. -/
def acksOf (board : Board) (environment : Environment) (node_id : UInt8) :
    Handled → List Completion → List (Transport × UpdatePacket)
  | _, [] => []
  | handled, completion :: done =>
    ackOf board environment handled completion ::
      acksOf board environment node_id (handle board environment node_id handled completion) done

/-- The encoded ACKs of one transport. -/
def acksOn (transport : Transport) (acks : List (Transport × UpdatePacket)) : List (List UInt8) :=
  (acks.filter fun ack => ack.1 = transport).map fun ack => encoded ack.2

section
variable {board : Board} {environment : Environment} {lines : Lines} {node_id : UInt8}

theorem handle_acks (done : List Completion) (handled : Handled) :
    (done.foldl (handle board environment node_id) handled).sent =
      handled.sent ++ (acksOf board environment node_id handled done).map fun ack =>
        transmit node_id ack.1 ack.2 := by
  induction done generalizing handled with
  | nil => exact (List.append_nil _).symm
  | cons completion done ih =>
    obtain ⟨transport, result⟩ := completion
    have hfirst : (handle board environment node_id handled (transport, result)).sent =
        handled.sent ++ [transmit node_id
          (ackOf board environment handled (transport, result)).1
          (ackOf board environment handled (transport, result)).2] := by
      cases result with
      | ok packet => rfl
      | error status => rfl
    rw [List.foldl_cons, ih, hfirst, acksOf, List.map_cons, List.append_assoc]
    rfl

/-- An ACK is 22 bytes long. -/
theorem acksOf_length {handled : Handled} {done : List Completion}
    {ack : Transport × UpdatePacket} (h : ack ∈ acksOf board environment node_id handled done) :
    (encoded ack.2).length = 22 := by
  induction done generalizing handled with
  | nil => exact nomatch h
  | cons completion done ih =>
    rcases List.mem_cons.mp h with rfl | hrest
    · obtain ⟨transport, result⟩ := completion
      rw [length_encoded]
      cases result with
      | ok packet => rfl
      | error status => rfl
    · exact ih hrest

theorem response_id_le (h : node_id ≤ UPDATE_CAN_MAX_NODE_ID) :
    update_can_response_id node_id ≤ 0x7FF := by
  have hnode : node_id.toNat ≤ 127 := UInt8.le_iff_toNat_le.mp h
  unfold update_can_response_id
  rw [UInt32.le_iff_toNat_le, UInt32.toNat_add, UInt8.toNat_toUInt32]
  change (0x680 + node_id.toNat) % 2 ^ 32 ≤ 2047
  omega

/-- The bus sees the CAN ACKs only, and the UART the others. -/
theorem transmission_fold (small : node_id ≤ UPDATE_CAN_MAX_NODE_ID)
    {acks : List (Transport × UpdatePacket)} (hacks : ∀ ack ∈ acks, (encoded ack.2).length = 22)
    (first : Out) :
    let out := (acks.map fun ack => transmit node_id ack.1 ack.2).foldl (transmission lines) first
    out.bus = (sendPackets
        (fun frame => send_frame_wait lines.can_send frame CAN_TX_RETRY_LIMIT)
        (update_can_response_id node_id) (acksOn .Can acks) first.bus).2 ∧
      ∃ sent, out.uart = first.uart ++ sent ∧ sent.Sublist (acksOn .Uart acks) ∧
        ((∀ k, lines.uart_send k = .Ok) → sent = acksOn .Uart acks) := by
  induction acks generalizing first with
  | nil => exact ⟨rfl, [], (List.append_nil _).symm, .slnil, fun _ => rfl⟩
  | cons ack acks ih =>
    have hlength : (encoded ack.2).length = 22 := hacks ack (List.mem_cons_self ..)
    obtain ⟨hbus, sent, huart, hsub, hall⟩ := ih (fun other hmem =>
      hacks other (List.mem_cons_of_mem _ hmem))
      (transmission lines first (transmit node_id ack.1 ack.2))
    obtain ⟨transport, packet⟩ := ack
    intro out
    cases transport with
    | Uart =>
      have hcan : acksOn .Can ((.Uart, packet) :: acks) = acksOn .Can acks := rfl
      have huarts : acksOn .Uart ((.Uart, packet) :: acks) = encoded packet :: acksOn .Uart acks :=
        rfl
      rw [hcan, huarts]
      refine ⟨hbus, ?_⟩
      by_cases hok : lines.uart_send first.uart_calls = .Ok
      · refine ⟨encoded packet :: sent, ?_, hsub.cons_cons _, fun h => by rw [hall h]⟩
        refine huart.trans ?_
        simp only [transmit, transmission, hok, if_true, List.append_assoc, List.singleton_append]
      · refine ⟨sent, ?_, hsub.cons _, fun h => absurd (h _) hok⟩
        refine huart.trans ?_
        simp only [transmit, transmission, hok, if_false]
    | Can =>
      have hcan : acksOn .Can ((.Can, packet) :: acks) = encoded packet :: acksOn .Can acks := rfl
      have huarts : acksOn .Uart ((.Can, packet) :: acks) = acksOn .Uart acks := rfl
      have hframes : firmwareFrames (update_can_response_id node_id) (encoded packet) =
          (fragments
            { packet := encoded packet, offset := 0, can_id := update_can_response_id node_id,
              fragment_index := 0 }).1 := by
        dsimp only at hlength
        unfold firmwareFrames
        rw [init_ok (by omega) (by omega) (response_id_le small)]
      rw [hcan, huarts]
      refine ⟨?_, sent, huart, hsub, hall⟩
      refine hbus.trans ?_
      simp only [sendPackets]
      rw [hframes]
      rfl

end

/-! ## What the host gets -/

/-- Nothing was sent yet. -/
def silent : Out where
  uart_calls := 0
  uart := []
  bus := { calls := 0, frames := [] }

theorem listens_start {world : World} {node_id : UInt8}
    (hloop : world.loop = boot_update_loop_init)
    (hcan : boot_can_update_loop_init node_id = some world.can_loop) :
    Listens world node_id [] [] := by
  unfold boot_can_update_loop_init at hcan
  split_ifs at hcan with hlarge
  have hsame := Option.some.inj hcan
  refine ⟨?_, ?_, ?_, ?_, UInt8.not_lt.mp hlarge⟩
  · rw [hloop]
    exact (congrArg Prod.snd update_stream.waiting_nil).symm
  · rw [← hsame]
    rfl
  · rw [← hsame]
  · rw [← hsame]

/-- Whatever the drivers return, the session and the store come to the same as when
every ACK gets out. The tool's reassembler gets some of the CAN ACKs, whole and in
order, from the frames on the bus, and all of them if no mailbox stays full for
too long. The UART carries whole ACKs too. -/
theorem acks_transmitted (board : Board) (environment : Environment) (lines : Lines)
    {world : World} {node_id : UInt8} (hloop : world.loop = boot_update_loop_init)
    (hcan : boot_can_update_loop_init node_id = some world.can_loop) (hsent : world.sent = [])
    (polls : List Poll) :
    let final := Sending.run board environment lines { world, out := silent } polls
    let done := completions (update_can_request_id node_id) [] [] (polls.flatMap Poll.inputs)
    let acks := acksOf board environment node_id world.handled done
    final.world.handled.state =
        (done.foldl (handle board environment node_id) world.handled).state ∧
      (∀ seen : List CanFrame, (∀ frame ∈ seen, frame.dlc.toNat ≤ 8) →
        (seen.filter fun frame => frame.id = update_can_response_id node_id) =
          final.out.bus.frames →
        let got := hostPackets (host_can.init ((update_can_response_id node_id).toNat : Int)) seen
        got.Sublist (acksOn .Can acks) ∧
          (Obliging lines.can_send CAN_TX_RETRY_LIMIT → got = acksOn .Can acks)) ∧
      final.out.uart.Sublist (acksOn .Uart acks) ∧
      ((∀ k, lines.uart_send k = .Ok) → final.out.uart = acksOn .Uart acks) := by
  have hlistens := listens_start hloop hcan
  have htracks : Tracks lines silent { world, out := silent } := by
    unfold Tracks
    rw [hsent]
    rfl
  intro final done acks
  have hrun := @run_eq board environment lines silent _ node_id [] [] hlistens htracks polls
  obtain ⟨-, hout, hhandled⟩ :=
    @receiveAll_eq board environment lines silent _ node_id [] [] hlistens htracks
      (polls.flatMap Poll.inputs)
  rw [← hrun] at hout hhandled
  have hacks : final.world.sent = acks.map fun ack => transmit node_id ack.1 ack.2 := by
    have hall := @handle_acks board environment node_id done world.handled
    rw [show world.handled.sent = [] from hsent, List.nil_append] at hall
    exact (congrArg Handled.sent hhandled).trans hall
  have hlengths : ∀ ack ∈ acks, (encoded ack.2).length = 22 := fun ack hmem => acksOf_length hmem
  obtain ⟨hbus, sent, huart, hsub, hall⟩ :=
    @transmission_fold lines node_id hlistens.small acks hlengths silent
  have hfold : final.out =
      (acks.map fun ack => transmit node_id ack.1 ack.2).foldl (transmission lines) silent := by
    rw [← hacks]
    exact hout
  rw [← hfold] at hbus huart
  refine ⟨congrArg Handled.state hhandled, ?_, ?_, ?_⟩
  · intro seen hdlc hseen got
    have hpackets : ∀ packet ∈ acksOn .Can acks, 20 ≤ packet.length ∧ packet.length ≤ 148 := by
      intro packet hmem
      obtain ⟨ack, hack, rfl⟩ := List.mem_map.mp hmem
      rw [hlengths ack (List.mem_of_mem_filter hack)]
      decide
    obtain ⟨frames, hframes, -, hcompleted⟩ := completed_sendPackets
      (wait_sends_once lines.can_send CAN_TX_RETRY_LIMIT) hpackets
      (response_id_le hlistens.small) update_can_reassembly_init silent.bus
    rw [← hbus] at hframes
    have hgot : got = (sendPackets
        (fun frame => send_frame_wait lines.can_send frame CAN_TX_RETRY_LIMIT)
        (update_can_response_id node_id) (acksOn .Can acks) silent.bus).1 := by
      unfold got
      rw [hostPackets_eq (together_init _) hdlc, completed_filter, hseen, hframes]
      exact hcompleted
    rw [hgot]
    exact ⟨sendPackets_sublist _ _, fun hobliging =>
      sendPackets_all (fun frame bus => wait_obliging lines.can_send hobliging frame bus) _ _⟩
  · rw [huart]
    exact hsub
  · intro hok
    rw [huart, hall hok]
    rfl

theorem discover_frames_few :
    (firmwareFrames (update_can_request_id 1) (encoded discover)).length ≤
      CAN_RX_FRAMES_PER_POLL := by
  have hlength : (encoded discover).length = 20 := length_encoded discover
  obtain ⟨more, last, hframes, -, -, hcount, -⟩ :=
    @firmwareFrames_group (update_can_request_id 1) (encoded discover) (by omega) (by omega)
      (by decide)
  rw [hframes, List.length_append, ← hcount, hlength, List.length_singleton]
  decide

/-- The frames of DISCOVER arrive in one poll of the CAN. -/
def discoverFrames : Poll :=
  .Can (firmwareFrames (update_can_request_id 1) (encoded discover)) discover_frames_few

/-- DISCOVER on the UART and then over CAN, with a mailbox that is full at every other
call. -/
theorem acks_transmitted_discover :
    let environment : Environment :=
      fun _ => (boot_flash.driver .F446 boot_flash.noFault, .Completes)
    let lines : Lines :=
      { uart_send := fun _ => .Ok, can_send := fun k => if k % 2 = 0 then .TxFull else .Ok }
    let polls := [discoverPoll, discoverFrames]
    let final := Sending.run .F446 environment lines { world := freshWorld, out := silent } polls
    let done := completions (update_can_request_id 1) [] [] (polls.flatMap Poll.inputs)
    let acks := acksOf .F446 environment 1 freshWorld.handled done
    final.world.handled.state =
        (done.foldl (handle .F446 environment 1) freshWorld.handled).state ∧
      (∀ seen : List CanFrame, (∀ frame ∈ seen, frame.dlc.toNat ≤ 8) →
        (seen.filter fun frame => frame.id = update_can_response_id 1) = final.out.bus.frames →
        let got := hostPackets (host_can.init ((update_can_response_id 1).toNat : Int)) seen
        got.Sublist (acksOn .Can acks) ∧
          (Obliging lines.can_send CAN_TX_RETRY_LIMIT → got = acksOn .Can acks)) ∧
      final.out.uart.Sublist (acksOn .Uart acks) ∧
      ((∀ k, lines.uart_send k = .Ok) → final.out.uart = acksOn .Uart acks) :=
  acks_transmitted .F446 _ _ rfl rfl rfl _

end stm32_vibe.can_transmit
