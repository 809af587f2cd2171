-- The update tool against the device from end to end. The running application, or
-- the bootloader, is behind a line that loses nothing. The tool asks for the update
-- mode, sends the image and returns, and the device boots it as a trial.
import Stm32Vibe.DownloadCheck
import Stm32Vibe.LossyLink
import Stm32Vibe.TrialSchedule
import Stm32Vibe.UpdateAgent
import Stm32Vibe.UpdateTool

namespace stm32_vibe.full_update

open little_endian code_points boot_state boot_policy boot_state_store save_history app_image
  boot_runtime boot_flash update_protocol update_session update_stream update_can can_transport
  host_can update_loop can_transmit update_agent host_port at_least_once finalize_image
  repeated_update transfer_laws image_artifacts boot_main download_check device trial_boots
  running_image trial_schedule
  lossy_link
open update_tool hiding main run_update session Serves

/-! ## The device behind the line -/

def UPDATE_CAN_NODE_ID : UInt8 := 1

def update_handoff_request (board : Board) (ram : Ram) : Ram :=
  Function.update ram (BOOT_UPDATE_REQUEST_ADDR board).toNat UPDATE_HANDOFF_MAGIC

/-- What is behind the line. -/
inductive Target where
  /-- The application, with the agent that its main loop polls. -/
  | Application (device : Device) (ram : Ram) (agent : UpdateAgent)
  /-- `run_update_loop_forever`. -/
  | Bootloader (world : World) (ram : Ram)
  | Off (device : Device)

/-- `enter_update_mode` on a device. -/
def enter_update_mode (device : Device) : World where
  loop := boot_update_loop_init
  can_loop :=
    { reassembly := update_can_reassembly_init, node_id := UPDATE_CAN_NODE_ID, initialized := true }
  copies := device.copies
  slots := device.slots
  saves := device.saves
  flash_calls := device.flash_calls
  processed := 0
  sent := []

/-- A reset of the device while the line is quiet. The application starts its agent. -/
def reset (board : Board) (device : Device) (ram : Ram) : Target :=
  let ran := main board false .Completes .Completes device.slots device.copies ram
  let device := device.step board (.Boot ram false .Completes .Completes)
  match ran.1 with
  | .Jump _ _ _ _ _ =>
    .Application device ran.2.ram (update_agent_init .NoReturn)
  | .UpdateMode => .Bootloader (enter_update_mode device) ran.2.ram
  | .PowerLost => .Off device

/-- What an act of the agent puts on the line. -/
def transmissions : Act → List Transmission
  | .Uart bytes => [.Uart bytes]
  | .Can frames => [.Can frames]
  | _ => []

/-- What a poll of one transport reads in `update_agent_poll`. -/
def agentInput : Poll → List UInt8 × List CanFrame
  | .Uart rx _ => (rx, [])
  | .Can rx _ => ([], rx)

/-- One round of the loop that runs, with one transport that has input: what it
sends, and what is behind the line then. The mailboxes are never full, and the flash
and the saves succeed. -/
def Target.poll (board : Board) (target : Target) (poll : Poll) : List Transmission × Target :=
  match target with
  | .Application device ram agent =>
    let agent := update_agent_poll (fun _ => .Ok) UPDATE_CAN_NODE_ID agent (agentInput poll)
    (agent.acts.flatMap transmissions,
      if agent.halted then reset board device (update_handoff_request board ram)
      else .Application device ram { agent with acts := [] })
  | .Bootloader world ram =>
    let world := world.poll board (plainEnvironment board) poll
    (world.sent,
      if world.loop.session.reset_requested then reset board (ofUpdate world.handled.state) ram
      else .Bootloader { world with sent := [] } ram)
  | .Off device => ([], .Off device)

def Target.polls (board : Board) : Target → List Poll → List Transmission × Target
  | target, [] => ([], target)
  | target, poll :: polls =>
    let first := target.poll board poll
    let rest := first.2.polls board polls
    (first.1 ++ rest.1, rest.2)

/-! ## The line -/

/-- An encoded packet on its way to the device: the bytes themselves, or the
frames that `CanPacketPort.write` makes of them. -/
def carried (transport : Transport) (bytes : List UInt8) : List Input :=
  match transport with
  | .Uart => bytes.map .Byte
  | .Can => (firmwareFrames (update_can_request_id UPDATE_CAN_NODE_ID) bytes).map .Frame

def uartBytes : Transmission → List UInt8
  | .Uart bytes => bytes
  | .Can _ => []

def canFrames : Transmission → List CanFrame
  | .Uart _ => []
  | .Can frames => frames

/-- What the port of the tool reads of the answers: the bytes, or what the
reassembler of `CanPacketPort` makes of the frames. -/
def heardBytes (transport : Transport) (reassembler : PacketReassembler)
    (sent : List Transmission) : List UInt8 × PacketReassembler :=
  match transport with
  | .Uart => (sent.flatMap uartBytes, reassembler)
  | .Can =>
    let frames := sent.flatMap canFrames
    ((hostPackets reassembler frames).flatten,
      lockstep.final host_can.feed reassembler (frames.map ofFrame))

/-- The device, and the reassembler of the tool's port. -/
structure Line where
  target : Target
  reassembler : PacketReassembler

/-- How the polls of the device cut what comes on the line. -/
structure Cutting (transport : Transport) where
  cut : List UInt8 → List Poll
  inputs_eq : ∀ bytes, bytes.length ≤ UPDATE_PROTOCOL_MAX_PACKET_SIZE →
    (cut bytes).flatMap Poll.inputs = carried transport bytes

def answer (board : Board) {transport : Transport} (cutting : Cutting transport)
    (bytes : List UInt8) (line : Line) : List UInt8 × Line :=
  let out := line.target.polls board (cutting.cut bytes)
  let heard := heardBytes transport line.reassembler out.1
  (heard.1, { target := out.2, reassembler := heard.2 })

/-! ## What a packet completes -/

section
variable {can_id : UInt32}

theorem completions_append (bytes : List UInt8) (frames : List CanFrame)
    (inputs more : List Input) :
    completions can_id bytes frames (inputs ++ more) =
      completions can_id bytes frames inputs ++
        completions can_id (bytes ++ inputBytes inputs) (frames ++ inputFrames inputs) more := by
  induction inputs generalizing bytes frames with
  | nil => simp [completions, inputBytes, inputFrames]
  | cons input inputs ih =>
    cases input with
    | Byte byte =>
      simp only [List.cons_append, completions, ih, List.append_assoc]
      rfl
    | Frame frame =>
      simp only [List.cons_append, completions, ih, List.append_assoc]
      rfl

/-- The frames alone complete what the reassembly completes of them. -/
theorem completions_frames (bytes : List UInt8) (before frames : List CanFrame) :
    completions can_id bytes before (frames.map .Frame) =
      (completed can_id (feedAll can_id update_can_reassembly_init before) frames).map
        fun packet => (Transport.Can, decodeResult packet) := by
  induction frames generalizing before with
  | nil => rfl
  | cons frame frames ih =>
    have hnext := ih (before ++ [frame])
    rw [feedAll_concat] at hnext
    rw [List.map_cons, completions, hnext]
    simp only [canCompletes, completed]
    generalize (update_can_reassembly_feed (feedAll can_id update_can_reassembly_init before) frame
      can_id).1.result = result
    cases result <;> rfl

end

section
variable {packet : UpdatePacket} (hfits : packet.payload_len.toNat ≤ 128)
include hfits

theorem encoded_bounds : 20 ≤ (encoded packet).length ∧ (encoded packet).length ≤ 148 := by
  rw [length_encoded]
  omega

theorem encoded_scans : scan (encoded packet) = ([.ok packet], []) := by
  have hscan := @scan_packets [packet] fun other hmem => by
    rw [List.mem_singleton.mp hmem]
    exact hfits
  rwa [List.flatMap_cons, List.flatMap_nil, List.append_nil] at hscan

/-- The first bytes of a packet complete nothing. -/
theorem scan_part {before after : List UInt8} (h : before ++ after = encoded packet)
    (hafter : after ≠ []) : (scan before).1 = [] := by
  have hlength := congrArg List.length h
  have hpositive := List.length_pos_iff.mpr hafter
  rw [List.length_append, length_encoded] at hlength
  by_cases hlong : 8 ≤ before.length
  · have hpayload : read_payload_len (encoded packet) = packet.payload_len :=
      read_message_len packet _
    have hheader : retransmission.Header (before ++ after) := by
      rw [h]
      refine ⟨⟨by rw [length_encoded]; omega, rfl, rfl⟩, ?_⟩
      rw [hpayload]
      exact hfits
    have hpacket : packetLen before = packetLen (before ++ after) :=
      (retransmission.packetLen_append hlong after).symm
    rw [retransmission.scan_pending ((retransmission.header_append hlong after).mp hheader)]
    rw [hpacket, h, packetLen, hpayload]
    omega
  · exact retransmission.scan_short (by omega)

end

/-- The first inputs of a packet complete nothing. -/
theorem carried_part (transport : Transport) {packet : UpdatePacket}
    (hfits : packet.payload_len.toNat ≤ 128) (frames : List CanFrame) {before after : List Input}
    (h : before ++ after = carried transport (encoded packet)) (hafter : after ≠ []) :
    completions (update_can_request_id UPDATE_CAN_NODE_ID) [] frames before = [] := by
  cases transport with
  | Uart =>
    obtain ⟨first, rest, hbytes, rfl, rfl⟩ := List.append_eq_map_iff.mp h
    have hscan := completions_bytes (update_can_request_id UPDATE_CAN_NODE_ID) frames [] first
    have hpart := scan_part hfits hbytes.symm (fun hnil => hafter (by rw [hnil]; rfl))
    rw [show scan ([] : List UInt8) = ([], []) from waiting_nil, List.nil_append, hpart] at hscan
    exact hscan
  | Can =>
    obtain ⟨first, rest, hframes, rfl, rfl⟩ := List.append_eq_map_iff.mp h
    obtain ⟨hleast, hmost⟩ := encoded_bounds hfits
    have hlt : first.length <
        (firmwareFrames (update_can_request_id UPDATE_CAN_NODE_ID) (encoded packet)).length := by
      have hpositive := List.length_pos_iff.mpr (fun hnil => hafter (by rw [hnil]; rfl) : rest ≠ [])
      rw [hframes, List.length_append]
      omega
    have hpart := @completed_part (update_can_request_id UPDATE_CAN_NODE_ID)
      (feedAll (update_can_request_id UPDATE_CAN_NODE_ID) update_can_reassembly_init frames)
      (encoded packet) hleast hmost (by decide) first.length hlt
    rw [hframes, List.take_left] at hpart
    rw [completions_frames, hpart]
    rfl

/-- And all of them complete the packet. -/
theorem carried_whole (transport : Transport) {packet : UpdatePacket}
    (hfits : packet.payload_len.toNat ≤ 128) (frames : List CanFrame) :
    completions (update_can_request_id UPDATE_CAN_NODE_ID) [] frames
        (carried transport (encoded packet)) = [(transport, .ok packet)] := by
  cases transport with
  | Uart =>
    have hscan := completions_bytes (update_can_request_id UPDATE_CAN_NODE_ID) frames []
      (encoded packet)
    rw [show scan ([] : List UInt8) = ([], []) from waiting_nil, List.nil_append,
      encoded_scans hfits] at hscan
    exact hscan
  | Can =>
    obtain ⟨hleast, hmost⟩ := encoded_bounds hfits
    have hwhole := @completed_whole (update_can_request_id UPDATE_CAN_NODE_ID)
      (feedAll (update_can_request_id UPDATE_CAN_NODE_ID) update_can_reassembly_init frames)
      (encoded packet) hleast hmost (by decide)
    rw [carried, completions_frames, hwhole, List.map_cons, List.map_nil,
      retransmission.decodeResult_encoded hfits]

section
variable {transport : Transport} {packet : UpdatePacket} {before inputs : List Input}

/-- A part of a packet completes nothing after the parts before it. -/
theorem part_completes (hfits : packet.payload_len.toNat ≤ 128) (frames : List CanFrame)
    (h : ∃ after, after ≠ [] ∧ before ++ inputs ++ after = carried transport (encoded packet)) :
    completions (update_can_request_id UPDATE_CAN_NODE_ID) (inputBytes before)
      (frames ++ inputFrames before) inputs = [] := by
  obtain ⟨after, hafter, hall⟩ := h
  have hnone := carried_part transport hfits frames hall hafter
  rw [completions_append] at hnone
  exact (List.append_eq_nil_iff.mp hnone).2

theorem last_completes (hfits : packet.payload_len.toNat ≤ 128) (frames : List CanFrame)
    (hbefore : before ≠ carried transport (encoded packet))
    (h : before ++ inputs = carried transport (encoded packet)) :
    completions (update_can_request_id UPDATE_CAN_NODE_ID) (inputBytes before)
      (frames ++ inputFrames before) inputs = [(transport, .ok packet)] := by
  have hinputs : inputs ≠ [] := by
    rintro rfl
    exact hbefore ((List.append_nil before).symm.trans h)
  have hnone := carried_part transport hfits frames h hinputs
  have hwhole := carried_whole transport hfits frames
  rw [← h, completions_append, hnone] at hwhole
  exact hwhole

theorem carried_ne (transport : Transport) (hfits : packet.payload_len.toNat ≤ 128) :
    carried transport (encoded packet) ≠ [] := by
  intro hnil
  have hwhole := carried_whole transport hfits []
  rw [hnil] at hwhole
  cases hwhole

end

/-! ## The polls over one packet -/

section
variable {board : Board}

/-- A packet that is cut into polls in any way: `Part` holds of what is behind the
line after a first part of it, and `Done` after all of it. -/
theorem polls_carried {inputs : List Input} {reply : List Transmission}
    {Part : List Input → Target → Prop} {Done : Target → Prop}
    (hpart : ∀ before target (poll : Poll), Part before target →
      (∃ after, after ≠ [] ∧ before ++ poll.inputs ++ after = inputs) →
      (target.poll board poll).1 = [] ∧
        Part (before ++ poll.inputs) (target.poll board poll).2)
    (hwhole : ∀ before target (poll : Poll), Part before target → before ≠ inputs →
      before ++ poll.inputs = inputs →
      (target.poll board poll).1 = reply ∧ Done (target.poll board poll).2)
    (hstill : ∀ target (poll : Poll), Done target → poll.inputs = [] →
      (target.poll board poll).1 = [] ∧ Done (target.poll board poll).2)
    {before : List Input} (hbefore : before ≠ inputs) {target : Target}
    (h : Part before target) {polls : List Poll}
    (hinputs : before ++ polls.flatMap Poll.inputs = inputs) :
    (target.polls board polls).1 = reply ∧ Done (target.polls board polls).2 := by
  have hquiet : ∀ (polls : List Poll) target, Done target → polls.flatMap Poll.inputs = [] →
      (target.polls board polls).1 = [] ∧ Done (target.polls board polls).2 := by
    intro polls
    induction polls with
    | nil => exact fun target hdone _ => ⟨rfl, hdone⟩
    | cons poll polls ih =>
      intro target hdone hnil
      obtain ⟨hfirst, hrest⟩ := List.append_eq_nil_iff.mp hnil
      obtain ⟨hsent, hnext⟩ := hstill target poll hdone hfirst
      obtain ⟨hmore, hlast⟩ := ih _ hnext hrest
      unfold Target.polls
      dsimp only
      exact ⟨by rw [hsent, hmore]; rfl, hlast⟩
  induction polls generalizing before target with
  | nil => exact absurd ((List.append_nil before).symm.trans hinputs) hbefore
  | cons poll polls ih =>
    rw [List.flatMap_cons, ← List.append_assoc] at hinputs
    unfold Target.polls
    dsimp only
    by_cases hnil : polls.flatMap Poll.inputs = []
    · rw [hnil, List.append_nil] at hinputs
      obtain ⟨hsent, hdone⟩ := hwhole before target poll h hbefore hinputs
      obtain ⟨hmore, hlast⟩ := hquiet polls _ hdone hnil
      exact ⟨by rw [hsent, hmore, List.append_nil], hlast⟩
    · obtain ⟨hsent, hnext⟩ := hpart before target poll h ⟨_, hnil, hinputs⟩
      have hproper : before ++ poll.inputs ≠ inputs := by
        intro hall
        rw [← hall] at hinputs
        exact hnil (List.append_right_eq_self.mp hinputs)
      obtain ⟨hmore, hlast⟩ := ih hproper hnext hinputs
      exact ⟨by rw [hsent, hmore]; rfl, hlast⟩

/-! ### The application -/

/-- The application runs, and its agent has heard some inputs since the last packet. -/
def Runs (device : Device) (ram : Ram) (frames : List CanFrame) (inputs : List Input)
    (target : Target) : Prop :=
  ∃ agent, target = .Application device ram agent ∧ agent.acts = [] ∧ agent.halted = false ∧
    agent.reset_callback = .NoReturn ∧
    Hears agent UPDATE_CAN_NODE_ID (inputBytes inputs) (frames ++ inputFrames inputs)

theorem agent_poll_eq (agent : UpdateAgent) (poll : Poll) :
    update_agent_poll (fun _ => .Ok) UPDATE_CAN_NODE_ID agent (agentInput poll) =
      poll.inputs.foldl (update_agent.receive (fun _ => .Ok) UPDATE_CAN_NODE_ID) agent := by
  cases poll with
  | Uart rx few => rw [Poll.inputs, List.foldl_map]; rfl
  | Can rx few => rw [Poll.inputs, List.foldl_map]; rfl

/-- What completes nothing leaves the agent as it was, but for what it has heard. -/
theorem agent_waits {agent : UpdateAgent} {bytes : List UInt8} {frames : List CanFrame}
    {inputs : List Input} (hhalted : agent.halted = false)
    (h : Hears agent UPDATE_CAN_NODE_ID bytes frames)
    (hnone : completions (update_can_request_id UPDATE_CAN_NODE_ID) bytes frames inputs = []) :
    let after := inputs.foldl (update_agent.receive (fun _ => .Ok) UPDATE_CAN_NODE_ID) agent
    Hears after UPDATE_CAN_NODE_ID (bytes ++ inputBytes inputs) (frames ++ inputFrames inputs) ∧
      after.reset_callback = agent.reset_callback ∧ after.said = agent.said ∧
      after.halted = false := by
  induction inputs generalizing agent bytes frames with
  | nil => exact ⟨by simpa [inputBytes, inputFrames] using h, rfl, rfl, hhalted⟩
  | cons input inputs ih =>
    obtain ⟨next, hnext, bytes', frames', hbytes, hframes, hheard, hrest⟩ :
        ∃ next, next = update_agent.receive (fun _ => .Ok) UPDATE_CAN_NODE_ID agent input ∧
          ∃ bytes' frames', bytes' ++ inputBytes inputs = bytes ++ inputBytes (input :: inputs) ∧
            frames' ++ inputFrames inputs = frames ++ inputFrames (input :: inputs) ∧
            Heard (fun _ => .Ok) UPDATE_CAN_NODE_ID bytes' frames' [] agent next ∧
            completions (update_can_request_id UPDATE_CAN_NODE_ID) bytes' frames' inputs = [] := by
      refine ⟨_, rfl, ?_⟩
      cases input with
      | Byte byte =>
        obtain ⟨hfirst, hrest⟩ := List.append_eq_nil_iff.mp hnone
        have hheard := @receiveByte_heard (fun _ => .Ok) UPDATE_CAN_NODE_ID agent bytes frames
          hhalted h byte
        rw [hfirst] at hheard
        exact ⟨bytes ++ [byte], frames, by simp [inputBytes], by simp [inputFrames], hheard, hrest⟩
      | Frame frame =>
        obtain ⟨hfirst, hrest⟩ := List.append_eq_nil_iff.mp hnone
        have hheard := @receiveFrame_heard (fun _ => .Ok) UPDATE_CAN_NODE_ID agent (by decide) bytes
          frames hhalted h frame
        rw [hfirst] at hheard
        exact ⟨bytes, frames ++ [frame], by simp [inputBytes], by simp [inputFrames], hheard, hrest⟩
    obtain ⟨hsaid, hrunning⟩ : next.said = agent.said ∧ next.halted = false := by
      rcases hheard.outcome with ⟨-, hsaid, hrunning⟩ | ⟨completion, hsome, -⟩
      · exact ⟨hsaid, hrunning⟩
      · cases hsome
    obtain ⟨hhears, hcallback, hsame, hlast⟩ := ih hrunning hheard.hears hrest
    rw [List.foldl_cons, ← hnext, ← hbytes, ← hframes]
    exact ⟨hhears, hcallback.trans hheard.callback_eq, hsame.trans hsaid, hlast⟩

/-- After a reset, a poll without input does nothing. -/
theorem reset_still (device : Device) (ram : Ram) {poll : Poll} (h : poll.inputs = []) :
    (reset board device ram).poll board poll = ([], reset board device ram) := by
  unfold reset
  dsimp only
  cases (main board false .Completes .Completes device.slots device.copies ram).1 with
  | Jump =>
    unfold Target.poll
    dsimp only
    rw [agent_poll_eq, h]
    rfl
  | UpdateMode =>
    unfold Target.poll
    dsimp only
    rw [poll_eq rfl, h]
    rfl
  | PowerLost => rfl

theorem transmit_can {packet : UpdatePacket} (hfits : packet.payload_len.toNat ≤ 128) :
    transmit UPDATE_CAN_NODE_ID .Can packet =
      .Can (firmwareFrames (update_can_response_id UPDATE_CAN_NODE_ID) (encoded packet)) := by
  obtain ⟨hleast, hmost⟩ := encoded_bounds hfits
  unfold transmit firmwareFrames
  rw [init_ok hleast hmost (by decide)]

theorem ack_fits (command : UInt8) (status : UpdateStatus) (session_id sequence : UInt32) :
    (ackPacket command status session_id sequence).payload_len.toNat ≤ 128 := by
  show 2 ≤ 128
  omega

/-- What the agent puts on the line for one completion that enters the update mode. -/
theorem enter_transmissions (transport : Transport) {packet : UpdatePacket}
    (henter : packet.command = UPDATE_CMD_ENTER_UPDATE) (can_calls : Nat) :
    (say (fun _ => .Ok) UPDATE_CAN_NODE_ID .NoReturn { acts := [], can_calls }
        (transport, .ok packet)).acts.flatMap transmissions =
      [transmit UPDATE_CAN_NODE_ID transport
        (ackPacket packet.command .Ok packet.session_id packet.sequence)] := by
  have hresetting : ∀ drain, resetting .NoReturn drain (.ok packet) = [drain, .Reset] := by
    intro drain
    unfold resetting
    rw [if_pos (show entersUpdate (.ok packet) = true from decide_eq_true henter)]
    rfl
  have hack : update_agent.answer (.ok packet) =
      ackPacket packet.command .Ok packet.session_id packet.sequence := by
    rw [update_agent.answer, agentStatus, if_pos (Or.inr henter)]
  cases transport with
  | Uart =>
    rw [say, hresetting, hack]
    rfl
  | Can =>
    have hall : ∀ limit, 0 < limit → Obliging (fun _ => CanResult.Ok) limit :=
      fun limit hlimit calls => ⟨0, hlimit, rfl, fun index h => absurd h (Nat.not_lt_zero index)⟩
    rw [transmit_can (ack_fits ..), say, hresetting, hack]
    dsimp only
    rw [(sendFrame_some _ _).2 (hall _ (Nat.succ_pos CAN_ACK_RETRIES))]
    rfl

/-- The application acknowledges an ENTER_UPDATE and resets with the request set. -/
theorem runs_enter (transport : Transport) {packet : UpdatePacket}
    (hfits : packet.payload_len.toNat ≤ 128)
    (henter : packet.command = UPDATE_CMD_ENTER_UPDATE) {device : Device} {ram : Ram}
    {frames : List CanFrame} {target : Target} (h : Runs device ram frames [] target)
    {polls : List Poll}
    (hinputs : polls.flatMap Poll.inputs = carried transport (encoded packet)) :
    (target.polls board polls).1 = [transmit UPDATE_CAN_NODE_ID transport
        (ackPacket packet.command .Ok packet.session_id packet.sequence)] ∧
      (target.polls board polls).2 = reset board device (update_handoff_request board ram) := by
  refine @polls_carried board (carried transport (encoded packet)) _ (Runs device ram frames)
    (· = reset board device (update_handoff_request board ram)) ?_ ?_ ?_ [] ?_ target h polls hinputs
  · rintro before target poll ⟨agent, rfl, hacts, hhalted, hcallback, hhears⟩ hpart
    have hnone := part_completes hfits frames hpart
    obtain ⟨hmore, hsame, hsaid, hrunning⟩ := agent_waits hhalted hhears hnone
    rw [← agent_poll_eq] at hmore hsame hsaid hrunning
    have hnothing := (congrArg Said.acts hsaid).trans hacts
    unfold Target.poll
    dsimp only
    rw [if_neg (by simp [hrunning])]
    refine ⟨?_, _, rfl, rfl, hrunning, hsame.trans hcallback, ?_⟩
    · rw [show UpdateAgent.acts _ = [] from hnothing]
      rfl
    · have hbytes : inputBytes (before ++ poll.inputs) =
          inputBytes before ++ inputBytes poll.inputs := List.filterMap_append
      have hframes : inputFrames (before ++ poll.inputs) =
          inputFrames before ++ inputFrames poll.inputs := List.filterMap_append
      rw [hbytes, hframes, ← List.append_assoc]
      exact ⟨hmore.buffer, hmore.reassembly⟩
  · rintro before target poll ⟨agent, rfl, hacts, hhalted, hcallback, hhears⟩ hbefore hall
    have hdone := last_completes hfits frames hbefore hall
    have hheard := @receiveAll_heard (fun _ => .Ok) UPDATE_CAN_NODE_ID agent (by decide)
      poll.inputs _ _ hhalted hhears
    rw [hdone, ← agent_poll_eq] at hheard
    have henters : entersUpdate (.ok packet) = true := decide_eq_true henter
    have hdown : (update_agent_poll (fun _ => .Ok) UPDATE_CAN_NODE_ID agent
        (agentInput poll)).halted = true :=
      hheard.halted_iff.mpr ⟨hcallback, _, List.mem_singleton_self _, henters⟩
    have hsaid := hheard.said_eq
    rw [hcallback] at hsaid
    simp only [heard, henters, and_self, if_true, List.foldl_cons, List.foldl_nil] at hsaid
    have hacts' := congrArg Said.acts hsaid
    unfold Target.poll
    dsimp only
    rw [if_pos hdown]
    refine ⟨?_, rfl⟩
    rw [show UpdateAgent.acts _ = _ from hacts',
      show agent.said = { acts := [], can_calls := agent.can_calls } from by
        rw [UpdateAgent.said, hacts]]
    exact enter_transmissions transport henter agent.can_calls
  · rintro target poll rfl hnil
    rw [reset_still device _ hnil]
    exact ⟨rfl, rfl⟩
  · exact (carried_ne transport hfits).symm

/-! ### The bootloader -/

/-- The update loop is in a state, no reset is requested, and some inputs have come
since the last packet. -/
def Listening (state : UpdateState) (ram : Ram) (frames : List CanFrame) (inputs : List Input)
    (target : Target) : Prop :=
  ∃ world, target = .Bootloader world ram ∧ world.sent = [] ∧ world.handled.state = state ∧
    state.session.reset_requested = false ∧
    Listens world UPDATE_CAN_NODE_ID (inputBytes inputs) (frames ++ inputFrames inputs)

/-- What the loop does with a poll, for what it completes. -/
theorem world_poll {world : World} {bytes : List UInt8} {frames : List CanFrame}
    (h : Listens world UPDATE_CAN_NODE_ID bytes frames) (poll : Poll) :
    let after := world.poll board (plainEnvironment board) poll
    Listens after UPDATE_CAN_NODE_ID (bytes ++ inputBytes poll.inputs)
        (frames ++ inputFrames poll.inputs) ∧
      after.handled =
        (completions (update_can_request_id UPDATE_CAN_NODE_ID) bytes frames poll.inputs).foldl
          (handle board (plainEnvironment board) UPDATE_CAN_NODE_ID) world.handled := by
  rw [poll_eq h.initialized]
  exact receiveAll_handled h poll.inputs

/-! ### The line as a run of the device -/

/-- The device that is behind the line. -/
def Target.device : Target → Device
  | .Application device _ _ => device
  | .Bootloader world _ => ofUpdate world.handled.state
  | .Off device => device

/-- The packets among some completions. A parse error hands nothing to the session. -/
def packetsOf (completed : List Completion) : List UpdatePacket :=
  completed.filterMap fun completion => completion.2.toOption

/-- A packet that meets the flash and the saves of `Target.poll`. -/
def packetEvent (board : Board) (packet : UpdatePacket) : Event := .Packet (plain board packet)

/-- What the update loop has read is a row of bytes and a row of frames. -/
def Target.Hearing : Target → Prop
  | .Bootloader world _ => ∃ bytes frames, Listens world UPDATE_CAN_NODE_ID bytes frames
  | _ => True

/-- A reset of the line is a boot of the device. -/
theorem reset_device (device : Device) (ram : Ram) :
    (reset board device ram).device =
      device.step board (.Boot ram false .Completes .Completes) := by
  have hmode : (device.step board (.Boot ram false .Completes .Completes)).mode =
      modeOf (main board false .Completes .Completes device.slots device.copies ram).1 := rfl
  unfold reset
  dsimp only
  cases hend : (main board false .Completes .Completes device.slots device.copies ram).1 with
  | Jump => rfl
  | PowerLost => rfl
  | UpdateMode =>
    rw [hend] at hmode
    unfold Target.device ofUpdate World.handled enter_update_mode boot_update_loop_init
    dsimp only
    generalize device.step board (.Boot ram false .Completes .Completes) = after at hmode ⊢
    cases after
    cases hmode
    rfl

theorem reset_hearing (device : Device) (ram : Ram) : (reset board device ram).Hearing := by
  unfold reset
  dsimp only
  cases (main board false .Completes .Completes device.slots device.copies ram).1 with
  | Jump => trivial
  | PowerLost => trivial
  | UpdateMode =>
    exact ⟨[], [], (congrArg Prod.snd waiting_nil).symm, rfl, rfl, rfl, by decide⟩

/-- The session moves with the completions as the device moves with their packets. -/
theorem handled_run (completed : List Completion) (handled : Handled) :
    ofUpdate (completed.foldl (handle board (plainEnvironment board) UPDATE_CAN_NODE_ID)
        handled).state =
      (ofUpdate handled.state).run board ((packetsOf completed).map (packetEvent board)) := by
  induction completed generalizing handled with
  | nil => rfl
  | cons completion completed ih =>
    rw [List.foldl_cons, ih]
    obtain ⟨transport, result⟩ := completion
    cases result with
    | error status => rfl
    | ok packet =>
      have hstep : (ofUpdate handled.state).step board (packetEvent board packet) =
          ofUpdate (processOne board (plain board packet) handled.state).2 :=
        @run_packets board [plain board packet] (by simp [plain]) handled.state
      have hpackets : packetsOf ((transport, .ok packet) :: completed) =
          packet :: packetsOf completed := rfl
      rw [hpackets, List.map_cons, run_cons, hstep]
      rfl

/-- A round of the update loop is a run of the device over the packets that complete in
it, and a boot after them when an ACTIVATE among them has asked for the reset. -/
theorem bootloader_poll_run {world : World} {bytes : List UInt8} {frames : List CanFrame}
    (h : Listens world UPDATE_CAN_NODE_ID bytes frames) (ram : Ram) (poll : Poll) :
    let packets := packetsOf
      (completions (update_can_request_id UPDATE_CAN_NODE_ID) bytes frames poll.inputs)
    let last := world.poll board (plainEnvironment board) poll
    ((Target.Bootloader world ram).poll board poll).2.device =
      (ofUpdate world.handled.state).run board (packets.map (packetEvent board) ++
        if last.handled.state.session.reset_requested then
          [.Boot ram false .Completes .Completes] else []) := by
  intro packets last
  have hlast : (ofUpdate world.handled.state).run board (packets.map (packetEvent board)) =
      ofUpdate last.handled.state := by
    rw [show last.handled = _ from (world_poll h poll).2]
    exact (handled_run _ _).symm
  have hsession : last.loop.session = last.handled.state.session := rfl
  unfold Target.poll
  dsimp only
  rw [run_append, hlast, hsession]
  cases last.handled.state.session.reset_requested with
  | true => exact reset_device _ _
  | false => rfl

/-- The application keeps the device as it is, until its agent resets it with the request set. -/
theorem application_poll_run (device : Device) (ram : Ram) (agent : UpdateAgent) (poll : Poll) :
    ((Target.Application device ram agent).poll board poll).2.device =
      device.run board
        (if (update_agent_poll (fun _ => .Ok) UPDATE_CAN_NODE_ID agent (agentInput poll)).halted
          then [.Boot (update_handoff_request board ram) false .Completes .Completes] else []) := by
  unfold Target.poll
  dsimp only
  cases (update_agent_poll (fun _ => .Ok) UPDATE_CAN_NODE_ID agent (agentInput poll)).halted with
  | true => exact reset_device _ _
  | false => rfl

theorem poll_hearing {target : Target} (h : target.Hearing) (poll : Poll) :
    (target.poll board poll).2.Hearing := by
  cases target with
  | Application device ram agent =>
    unfold Target.poll
    dsimp only
    split
    · exact reset_hearing _ _
    · trivial
  | Bootloader world ram =>
    obtain ⟨bytes, frames, hlistens⟩ := h
    unfold Target.poll
    dsimp only
    split
    · exact reset_hearing _ _
    · have hnext := (@world_poll board _ _ _ hlistens poll).1
      exact ⟨_, _, hnext.buffer, hnext.reassembly, hnext.node, hnext.initialized, hnext.small⟩
  | Off device => trivial

/-- So whatever comes on the line, the device behind it makes a run of its events. -/
theorem polls_run {target : Target} (h : target.Hearing) (polls : List Poll) :
    ∃ events, (target.polls board polls).2.device = target.device.run board events := by
  induction polls generalizing target with
  | nil => exact ⟨[], rfl⟩
  | cons poll polls ih =>
    obtain ⟨later, hlater⟩ := ih (poll_hearing h poll)
    have hfirst : ∃ events, (target.poll board poll).2.device = target.device.run board events := by
      cases target with
      | Application device ram agent => exact ⟨_, application_poll_run device ram agent poll⟩
      | Bootloader world ram =>
        obtain ⟨bytes, frames, hlistens⟩ := h
        exact ⟨_, bootloader_poll_run hlistens ram poll⟩
      | Off device => exact ⟨[], rfl⟩
    obtain ⟨events, hevents⟩ := hfirst
    refine ⟨events ++ later, ?_⟩
    rw [run_append, ← hevents]
    exact hlater

/-- Nothing of a packet waits after its last input. -/
theorem carried_scans (transport : Transport) {packet : UpdatePacket}
    (hfits : packet.payload_len.toNat ≤ 128) :
    (scan (inputBytes (carried transport (encoded packet)))).2 = [] := by
  cases transport with
  | Uart =>
    have hbytes : inputBytes (carried .Uart (encoded packet)) = encoded packet := by
      simp [inputBytes, carried, List.filterMap_map]
    rw [hbytes, encoded_scans hfits]
  | Can =>
    have hbytes : inputBytes (carried .Can (encoded packet)) = [] := by
      simp [inputBytes, carried, List.filterMap_map]
    rw [hbytes]
    exact congrArg Prod.snd waiting_nil

/-- The bootloader answers a packet with the status of the session, and resets when
the session asks for it. -/
theorem listening_packet (transport : Transport) {packet : UpdatePacket}
    (hfits : packet.payload_len.toNat ≤ 128) {state : UpdateState} {ram : Ram}
    {frames : List CanFrame} {target : Target} (h : Listening state ram frames [] target)
    {polls : List Poll}
    (hinputs : polls.flatMap Poll.inputs = carried transport (encoded packet)) :
    let out := processOne board (plain board packet) state
    (target.polls board polls).1 = [transmit UPDATE_CAN_NODE_ID transport
        (ackPacket packet.command out.1 packet.session_id packet.sequence)] ∧
      (out.2.session.reset_requested = true →
        (target.polls board polls).2 = reset board (ofUpdate out.2) ram) ∧
      (out.2.session.reset_requested = false →
        ∃ frames, Listening out.2 ram frames [] (target.polls board polls).2) := by
  intro out
  refine @polls_carried board (carried transport (encoded packet)) _ (Listening state ram frames)
    (fun target =>
      (out.2.session.reset_requested = true → target = reset board (ofUpdate out.2) ram) ∧
      (out.2.session.reset_requested = false → ∃ frames, Listening out.2 ram frames [] target))
    ?_ ?_ ?_ [] (carried_ne transport hfits).symm target h polls hinputs
  · rintro before target poll ⟨world, rfl, hsent, hstate, hnot, hlistens⟩ hpart
    obtain ⟨hafter, hhandled⟩ := @world_poll board world _ _ hlistens poll
    rw [part_completes hfits frames hpart, List.foldl_nil] at hhandled
    have hsame := congrArg Handled.state hhandled
    have hsession : (world.poll board (plainEnvironment board) poll).loop.session =
        state.session := by
      rw [← hstate]
      exact congrArg UpdateState.session hsame
    unfold Target.poll
    dsimp only
    rw [if_neg (by simp [hsession, hnot])]
    refine ⟨(congrArg Handled.sent hhandled).trans hsent, _, rfl, rfl, hsame.trans hstate, hnot, ?_⟩
    have hbytes : inputBytes (before ++ poll.inputs) =
        inputBytes before ++ inputBytes poll.inputs := List.filterMap_append
    have hframes : inputFrames (before ++ poll.inputs) =
        inputFrames before ++ inputFrames poll.inputs := List.filterMap_append
    rw [hbytes, hframes, ← List.append_assoc]
    exact ⟨hafter.buffer, hafter.reassembly, hafter.node, hafter.initialized, hafter.small⟩
  · rintro before target poll ⟨world, rfl, hsent, hstate, hnot, hlistens⟩ hbefore hall
    obtain ⟨hafter, hhandled⟩ := @world_poll board world _ _ hlistens poll
    rw [last_completes hfits frames hbefore hall, List.foldl_cons, List.foldl_nil] at hhandled
    have hout : (world.poll board (plainEnvironment board) poll).handled.state = out.2 := by
      rw [hhandled]
      show (processOne board (plain board packet) world.handled.state).2 = out.2
      rw [hstate]
    have hack : (world.poll board (plainEnvironment board) poll).sent =
        [transmit UPDATE_CAN_NODE_ID transport
          (ackPacket packet.command out.1 packet.session_id packet.sequence)] := by
      have hadded := congrArg Handled.sent hhandled
      have hstatus : (processOne board (plain board packet) world.handled.state).1 = out.1 := by
        rw [hstate]
      rw [← hstatus]
      refine hadded.trans ?_
      show world.sent ++ _ = _
      rw [hsent]
      rfl
    have hsession : (world.poll board (plainEnvironment board) poll).loop.session =
        out.2.session := congrArg UpdateState.session hout
    unfold Target.poll
    dsimp only
    refine ⟨hack, ?_, ?_⟩
    · intro hreset
      rw [if_pos (by rw [hsession, hreset]), hout]
    · intro hreset
      rw [if_neg (by simp [hsession, hreset])]
      refine ⟨frames ++ inputFrames before ++ inputFrames poll.inputs, _, rfl, rfl, hout, hreset, ?_⟩
      have hbytes : inputBytes before ++ inputBytes poll.inputs =
          inputBytes (carried transport (encoded packet)) := by
        rw [← hall]
        exact List.filterMap_append.symm
      refine ⟨?_, ?_, hafter.node, hafter.initialized, hafter.small⟩
      · refine hafter.buffer.trans ?_
        rw [hbytes, carried_scans transport hfits]
        exact (congrArg Prod.snd waiting_nil).symm
      · rw [show inputFrames [] = [] from rfl, List.append_nil]
        exact hafter.reassembly
  · rintro target poll ⟨hreset, hstays⟩ hnil
    cases hrequested : out.2.session.reset_requested with
    | true =>
      rw [hreset hrequested, reset_still _ _ hnil]
      exact ⟨rfl, fun _ => rfl, nofun⟩
    | false =>
      obtain ⟨frames, world, rfl, hsent, hstate, hnot, hlistens⟩ := hstays hrequested
      unfold Target.poll
      dsimp only
      rw [poll_eq hlistens.initialized, hnil, List.foldl_nil,
        if_neg (by rw [show world.loop.session = out.2.session from
          congrArg UpdateState.session hstate, hnot]; simp)]
      exact ⟨hsent, nofun, fun _ => ⟨frames, _, rfl, rfl, hstate, hnot, hlistens.buffer,
        hlistens.reassembly, hlistens.node, hlistens.initialized, hlistens.small⟩⟩

end

/-! ## The tool's side of the line -/

/-- The reassembler of the port is where the frames of the device have led it. -/
def Joined (reassembler : PacketReassembler) : Prop :=
  ∃ reassembly, Together (update_can_response_id UPDATE_CAN_NODE_ID) reassembly reassembler

theorem joined_init :
    Joined (host_can.init ((update_can_response_id UPDATE_CAN_NODE_ID).toNat : Int)) :=
  ⟨_, together_init _⟩

/-- The port gives the bytes of a packet from the device, on both transports. -/
theorem heard_packet (transport : Transport) {packet : UpdatePacket}
    (hfits : packet.payload_len.toNat ≤ 128) {reassembler : PacketReassembler}
    (h : Joined reassembler) :
    (heardBytes transport reassembler [transmit UPDATE_CAN_NODE_ID transport packet]).1 =
        encoded packet ∧
      Joined (heardBytes transport reassembler
        [transmit UPDATE_CAN_NODE_ID transport packet]).2 := by
  cases transport with
  | Uart => exact ⟨by simp [heardBytes, transmit, uartBytes], h⟩
  | Can =>
    obtain ⟨reassembly, htogether⟩ := h
    obtain ⟨hleast, hmost⟩ := encoded_bounds hfits
    have hframes : [transmit UPDATE_CAN_NODE_ID .Can packet].flatMap canFrames =
        firmwareFrames (update_can_response_id UPDATE_CAN_NODE_ID) (encoded packet) := by
      rw [transmit_can hfits]
      simp [canFrames]
    have hdlc : ∀ frame ∈ firmwareFrames (update_can_response_id UPDATE_CAN_NODE_ID)
        (encoded packet), frame.dlc.toNat ≤ 8 := by
      intro frame hmem
      exact ((firmwareFrames_results hleast hmost (by decide)
        update_can_reassembly_init).1 frame hmem).2.2
    have hsame : List.Forall₂ SameFrame
        (firmwareFrames (update_can_response_id UPDATE_CAN_NODE_ID) (encoded packet))
        ((firmwareFrames (update_can_response_id UPDATE_CAN_NODE_ID)
          (encoded packet)).map ofFrame) := by
      rw [List.forall₂_map_right_iff, List.forall₂_same]
      exact fun frame hmem => ⟨hdlc frame hmem, rfl⟩
    have hrun := (together_simulates _).run hsame htogether
    unfold heardBytes
    dsimp only
    rw [hframes, hostPackets_eq htogether hdlc, completed_whole hleast hmost (by decide)]
    exact ⟨List.append_nil _, _, hrun.2⟩

section
variable {board : Board} {transport : Transport} {cutting : Cutting transport}

/-- A request to the running application is answered, and the device resets with it. -/
theorem line_enter {packet : UpdatePacket} (hfits : packet.payload_len.toNat ≤ 128)
    (henter : packet.command = UPDATE_CMD_ENTER_UPDATE) {device : Device} {ram : Ram}
    {frames : List CanFrame} {line : Line} (h : Runs device ram frames [] line.target)
    (hjoined : Joined line.reassembler) :
    ∃ next, update_tool.Serves (answer board cutting) packet line next ∧
      next.target = reset board device (update_handoff_request board ram) ∧
      Joined next.reassembler := by
  have hmost := (encoded_bounds hfits).2
  obtain ⟨hsent, htarget⟩ := @runs_enter board transport packet hfits henter device ram frames
    line.target h (cutting.cut (encoded packet)) (cutting.inputs_eq _ hmost)
  obtain ⟨hbytes, hnext⟩ := heard_packet transport
    (ack_fits packet.command .Ok packet.session_id packet.sequence) hjoined
  rw [← hsent] at hbytes hnext
  exact ⟨(answer board cutting (encoded packet) line).2, Prod.ext hbytes rfl, htarget, hnext⟩

/-- A packet that the session answers with OK is served. -/
theorem line_packet {packet : UpdatePacket} (hfits : packet.payload_len.toNat ≤ 128)
    {state : UpdateState} {ram : Ram} {frames : List CanFrame} {line : Line}
    (h : Listening state ram frames [] line.target) (hjoined : Joined line.reassembler)
    (hok : (processOne board (plain board packet) state).1 = .Ok) :
    let out := processOne board (plain board packet) state
    ∃ next, update_tool.Serves (answer board cutting) packet line next ∧
      Joined next.reassembler ∧
      (out.2.session.reset_requested = true →
        next.target = reset board (ofUpdate out.2) ram) ∧
      (out.2.session.reset_requested = false →
        ∃ frames, Listening out.2 ram frames [] next.target) := by
  have hmost := (encoded_bounds hfits).2
  obtain ⟨hsent, hreset, hstays⟩ := @listening_packet board transport packet hfits state ram frames
    line.target h (cutting.cut (encoded packet)) (cutting.inputs_eq _ hmost)
  rw [hok] at hsent
  obtain ⟨hbytes, hnext⟩ := heard_packet transport
    (ack_fits packet.command .Ok packet.session_id packet.sequence) hjoined
  rw [← hsent] at hbytes hnext
  exact ⟨(answer board cutting (encoded packet) line).2, Prod.ext hbytes rfl, hnext, hreset, hstays⟩

/-- Only an ACTIVATE requests the reset. -/
theorem quiet_packet {delivery : Delivery} {state : UpdateState}
    (hquiet : delivery.packet.command ≠ UPDATE_CMD_ACTIVATE)
    (h : state.session.reset_requested = false) :
    (processOne board delivery state).2.session.reset_requested = false := by
  have step := processOne_step board delivery state
  generalize (processOne board delivery state).2 = next at step
  generalize (processOne board delivery state).1 = status at step
  cases step with
  | activated command => exact absurd command hquiet
  | activate_failed command => exact absurd command hquiet
  | aborted => rfl
  | _ => exact h

/-- A row of packets without an ACTIVATE, all answered with OK. -/
theorem line_packets {packets : List UpdatePacket}
    (hfits : ∀ packet ∈ packets, packet.payload_len.toNat ≤ 128)
    (hquiet : ∀ packet ∈ packets, packet.command ≠ UPDATE_CMD_ACTIVATE) {state : UpdateState}
    {ram : Ram} {frames : List CanFrame} {line : Line}
    (h : Listening state ram frames [] line.target) (hjoined : Joined line.reassembler)
    (hok : ∀ status ∈ (processAll board (packets.map (plain board)) state).1, status = .Ok) :
    ∃ last, ServesAll (answer board cutting) packets line last ∧ Joined last.reassembler ∧
      ∃ frames, Listening (processAll board (packets.map (plain board)) state).2 ram frames []
        last.target := by
  induction packets generalizing state frames line with
  | nil => exact ⟨line, rfl, hjoined, frames, h⟩
  | cons packet packets ih =>
    obtain ⟨next, hserves, hnext, -, hstays⟩ := @line_packet board transport cutting packet
      (hfits packet (List.mem_cons_self ..)) state ram frames line h hjoined
      (hok _ (List.mem_cons_self ..))
    obtain ⟨world, -, -, -, hnot, -⟩ := h
    obtain ⟨frames, hlistening⟩ := hstays (@quiet_packet board (plain board packet) state
      (hquiet packet (List.mem_cons_self ..)) hnot)
    obtain ⟨last, hrest, hlast⟩ := ih (fun p hp => hfits p (List.mem_cons_of_mem _ hp))
      (fun p hp => hquiet p (List.mem_cons_of_mem _ hp)) hlistening hnext
      (fun status hmem => hok status (List.mem_cons_of_mem _ hmem))
    exact ⟨last, ⟨next, hserves, hrest⟩, hlast⟩

end

/-! ## Before the update -/

/-- What the tool can update: an application that it may ask for the update mode, or an
update loop that writes no slot but the inactive one. -/
inductive Updatable (board : Board) (args : Arguments) (device : Device) (ram : Ram)
    (target : Target) : Prop
  | running {frames : List CanFrame} (runs : Runs device ram frames [] target)
      (asks : args.no_discover = false ∧ args.no_app_reset = false)
  | updating {frames : List CanFrame} {session : BootUpdateSession}
      (listening : Listening (device.updateState session) ram frames [] target)
      (no_request : NoRequest board ram)
      (writes : session.session_active = true → session.target_slot = targetSlot device.copies)

section
variable {board : Board}

/-- A reset with the request set ends in the update loop, and the request is taken. -/
theorem reset_updates (device : Device) (ram : Ram) :
    ∃ taken, NoRequest board taken ∧
      Listening (device.updateState boot_update_session_init) taken [] []
        (reset board device (update_handoff_request board ram)) := by
  have hword : update_handoff_request board ram (BOOT_UPDATE_REQUEST_ADDR board).toNat =
      UPDATE_HANDOFF_MAGIC := Function.update_self ..
  obtain ⟨taken, htaken⟩ : ∃ taken, taken =
      Function.update (update_handoff_request board ram) (BOOT_UPDATE_REQUEST_ADDR board).toNat 0 :=
    ⟨_, rfl⟩
  have hmain : main board false .Completes .Completes device.slots device.copies
      (update_handoff_request board ram) =
      (.UpdateMode, { copies := device.copies, ram := taken, saves := [] }) := by
    unfold main update_handoff_take
    simp [hword, htaken]
  have hboot := @boot_updates board device (update_handoff_request board ram) .Completes .Completes
    false fun h => h.1 hword
  refine ⟨taken, ?_, enter_update_mode { device with mode := .Update boot_update_session_init }, ?_,
    rfl, rfl, rfl, ⟨(congrArg Prod.snd waiting_nil).symm, rfl, rfl, rfl, by decide⟩⟩
  · unfold NoRequest
    rw [htaken, Function.update_self]
    exact zero_ne_magic
  · unfold reset
    dsimp only
    rw [hboot, hmain]

/-- The session answers these commands with OK and does nothing. -/
theorem asking_ok {packet : UpdatePacket} (state : UpdateState)
    (h : packet.command = UPDATE_CMD_DISCOVER ∨ packet.command = UPDATE_CMD_ENTER_UPDATE) :
    processOne board (plain board packet) state = (.Ok, state) := by
  have hfree : ¬ command_requires_active_session packet.command := by
    rcases h with h | h <;> rw [h] <;> decide
  have hidle : packet.command = UPDATE_CMD_DISCOVER ∨ packet.command = UPDATE_CMD_STATUS ∨
      packet.command = UPDATE_CMD_ENTER_UPDATE := by
    rcases h with h | h
    · exact Or.inl h
    · exact Or.inr (Or.inr h)
  unfold processOne plain boot_update_session_process
  dsimp only
  rw [if_neg fun hboth => hfree hboth.1, if_pos hidle]

section
variable {transport : Transport} {cutting : Cutting transport} {args : Arguments}
  {device : Device} {session : BootUpdateSession} {ram : Ram} {frames : List CanFrame} {line : Line}

/-- The update loop answers what only asks, and stays where it is. -/
theorem line_asking {packet : UpdatePacket} (hfits : packet.payload_len.toNat ≤ 128)
    (hasks : packet.command = UPDATE_CMD_DISCOVER ∨ packet.command = UPDATE_CMD_ENTER_UPDATE)
    {state : UpdateState} (h : Listening state ram frames [] line.target)
    (hjoined : Joined line.reassembler) :
    ∃ next, update_tool.Serves (answer board cutting) packet line next ∧
      Joined next.reassembler ∧ ∃ frames, Listening state ram frames [] next.target := by
  have hout := @asking_ok board packet state hasks
  obtain ⟨next, hserves, hnext, -, hstays⟩ := @line_packet board transport cutting packet hfits
    state ram frames line h hjoined (congrArg Prod.fst hout)
  rw [hout] at hstays
  obtain ⟨world, -, -, -, hnot, -⟩ := h
  exact ⟨next, hserves, hnext, hstays hnot⟩

/-- What the tool sends before the update leads to the update loop. -/
theorem line_opens (hturns : 0 < args.turns) (h : Updatable board args device ram line.target)
    (hjoined : Joined line.reassembler) :
    ∃ opened, Opens (answer board cutting) args line opened ∧ Joined opened.reassembler ∧
      ∃ frames session ram, NoRequest board ram ∧
        Listening (device.updateState session) ram frames [] opened.target ∧
        (session.session_active = true → session.target_slot = targetSlot device.copies) := by
  have hprobe : ∀ {frames : List CanFrame} {session : BootUpdateSession} {ram : Ram}
      {requested : Line}, Listening (device.updateState session) ram frames [] requested.target →
      Joined requested.reassembler → ∃ opened, update_tool.Serves (answer board cutting)
        (discoverPacket args.word 0) requested opened ∧ Joined opened.reassembler ∧
        ∃ frames, Listening (device.updateState session) ram frames [] opened.target :=
    fun hlistening hrequested => line_asking (Nat.zero_le _) (Or.inl rfl) hlistening hrequested
  unfold Opens
  cases h with
  | running runs asks =>
    obtain ⟨requested, hrequest, htarget, hrequested⟩ :=
      @line_enter board transport cutting (enterPacket args.word 0) (Nat.zero_le _) rfl device
        ram _ line runs hjoined
    obtain ⟨taken, hnone, hlistening⟩ := @reset_updates board device ram
    rw [← htarget] at hlistening
    obtain ⟨opened, hdiscover, hopened, frames, hlast⟩ := hprobe hlistening hrequested
    refine ⟨opened, ?_, hopened, frames, boot_update_session_init, taken, hnone, hlast, nofun⟩
    rw [if_neg (by simp [asks.1])]
    refine ⟨requested, ?_, hturns, hdiscover⟩
    rw [if_neg (by simp [asks.2])]
    exact hrequest
  | @updating _ session listening no_request writes =>
    by_cases hskip : args.no_discover = true
    · refine ⟨line, ?_, hjoined, _, _, ram, no_request, listening, writes⟩
      rw [if_pos hskip]
    · obtain ⟨requested, hrequest, hrequested, frames, hlistening⟩ : ∃ requested,
          (if args.no_app_reset then requested = line
            else update_tool.Serves (answer board cutting) (enterPacket args.word 0) line
              requested) ∧
          Joined requested.reassembler ∧
            ∃ frames, Listening (device.updateState session) ram frames [] requested.target := by
        by_cases hsilent : args.no_app_reset = true
        · simp only [if_pos hsilent]
          exact ⟨line, rfl, hjoined, _, listening⟩
        · simp only [if_neg hsilent]
          exact line_asking (Nat.zero_le _) (Or.inr rfl) listening hjoined
      obtain ⟨opened, hdiscover, hopened, frames, hlast⟩ := hprobe hlistening hrequested
      refine ⟨opened, ?_, hopened, frames, _, ram, no_request, hlast, writes⟩
      rw [if_neg hskip]
      exact ⟨requested, hrequest, hturns, hdiscover⟩

end

end

/-! ## The image that is sent -/

section
variable {board : Board} {image binary : List UInt8} {metadata : Metadata} {slots : Slots}
  {slot : UInt32}

/-- A finished image that passes the checks of its vectors boots from its slot. -/
theorem finished_bootable (hfin : Finalized image binary metadata)
    (hfit : binary.length ≤ (APP_SLOT_SIZE board).toNat) {copies : Copies}
    (hvectors : vectorsAccepted board (imageOf binary) binary.length.toUInt32
      (slot_base board (targetSlot copies)) (slot_end board (targetSlot copies)))
    (hlater : LaterChecks (imageOf binary))
    (hholds : Holds (slots.image (targetSlot copies)) binary) :
    Bootable board slots (targetSlot copies) := by
  have accepted := @stage_accepted board copies binary image metadata hfin hfit hvectors
    { session :=
        { boot_update_session_init with
          target_slot := targetSlot copies
          transfer_complete := true
          expected_image_size := binary.length.toUInt32
          expected_image_crc32 := metadata.image_crc32 }
      copies, slots, saves := [], flash_calls := [] } rfl rfl rfl rfl hholds
  have hi : ImageAccepted board slots (targetSlot copies) := accepted.image
  have hv : VectorsAccepted board slots (targetSlot copies) := accepted.vectors
  obtain ⟨-, -, -, hsize, -⟩ := finalized_manifest hfin hholds
  have hlen := finalized_size hfin
  have hroom := hfin.room
  rw [← length_finalized hfin] at hroom
  unfold MANIFEST_OFFSET MANIFEST_SIZE at hroom
  have hsame : ∀ i < binary.length, imageOf binary i = slots.image (targetSlot copies) i :=
    fun i hi => by rw [imageOf_holds binary i hi, hholds i hi]
  have hmanifest : manifestOf (imageOf binary) = manifestOf (slots.image (targetSlot copies)) :=
    manifestOf_congr fun i hi => hsame i (by omega)
  refine ⟨hi, hv, (relocation_iff hi hv).mpr ?_⟩
  unfold LaterChecks at hlater ⊢
  dsimp only at hlater ⊢
  rw [hmanifest] at hlater
  intro hr
  obtain ⟨hoffset, hgot, hin, hfits, hcapacity, hlast⟩ := hlater hr
  obtain ⟨-, -, -, hwords⟩ := vector_bounds hi hr
  refine ⟨hoffset, hgot, hin, hfits, hcapacity, fun index h2 hlt => ?_⟩
  have haccepted := hlast index h2 hlt
  rw [gt_iff_lt, UInt32.not_lt, UInt32.le_iff_toNat_le, UInt32.toNat_div, hsize, hlen,
    show (4 : UInt32).toNat = 4 from rfl] at hwords
  rwa [readWord_congr fun k hk => hsame (4 * index + k) (by omega)] at haccepted

end

/-! ## After the update -/

/-- A reset that starts an image starts its agent too. -/
theorem reset_runs {board : Board} {device : Device} {ram : Ram} {candidate : BootCandidate}
    (h : (device.step board (.Boot ram false .Completes .Completes)).mode = .Running candidate) :
    ∃ later, reset board device ram =
      .Application (device.step board (.Boot ram false .Completes .Completes)) later
        (update_agent_init .NoReturn) := by
  have hmain : modeOf (main board false .Completes .Completes device.slots device.copies ram).1 =
      .Running candidate := h
  unfold reset
  dsimp only
  cases hran : (main board false .Completes .Completes device.slots device.copies ram).1 with
  | Jump => exact ⟨_, rfl⟩
  | UpdateMode => rw [hran] at hmain; cases hmain
  | PowerLost => rw [hran] at hmain; cases hmain

/-- The slot is pending with no attempt stored, has the image, and boots. -/
structure Sent (board : Board) (slot : UInt32) (binary : List UInt8) (generation : Nat)
    (device : Device) : Prop where
  valid : slot_is_valid slot
  pending : (boot_state_store_load device.copies).pending_slot = slot
  attempts : (boot_state_store_load device.copies).pending_attempts = 0
  status : status_for_slot (boot_state_store_load device.copies) slot = BOOT_SLOT_STATUS_PENDING
  generation_eq : generationOf (boot_state_store_load device.copies) = generation
  holds : Holds (device.slots.image slot) binary
  bootable : Bootable board device.slots slot

section
variable {board : Board} {slot : UInt32} {binary : List UInt8} {generation : Nat} {device : Device}

theorem sent_due (h : Sent board slot binary generation device) :
    TrialDue (boot_state_store_load device.copies) := by
  refine ⟨?_, ?_, ?_⟩
  · rw [h.pending]
    exact slot_ne_none h.valid
  · rw [h.attempts]
    decide
  · rw [h.pending]
    exact h.status

/-- The first boot runs the image as a trial. -/
theorem sent_boots (h : Sent board slot binary generation device)
    (hroom : generation + 1 < 2 ^ 32) {ram : Ram} (hr : NoRequest board ram) :
    ∃ after later agent, reset board device ram = .Application after later agent ∧
      after.mode = .Running (candidateFor board slot true) ∧ after.slots = device.slots ∧
      boot_state_store_load after.copies = countAttempt (boot_state_store_load device.copies) := by
  have due := sent_due h
  have hb := h.bootable
  have hgeneration := h.generation_eq
  rw [← h.pending] at hb ⊢
  have path := BootPath.trial due hb.image
  obtain ⟨hmode, hslots, hcopies⟩ := @boot_starts board device ram .Completes .Completes _ _ _ hr
    path ⟨fun _ => rfl, fun _ => rfl⟩ hb
  have hload : boot_state_store_load (device.step board
      (.Boot ram false .Completes .Completes)).copies =
      countAttempt (boot_state_store_load device.copies) := by
    rw [hcopies]
    exact load_completed (.count due) (by rw [hgeneration]; exact hroom)
  obtain ⟨later, hreset⟩ := reset_runs hmode
  exact ⟨_, later, _, hreset, hmode, hslots, hload⟩

/-- The confirmation of the trial settles the device on the image. -/
theorem sent_confirms (h : Sent board slot binary generation device)
    (hroom : generation + 2 < 2 ^ 32) {after : Device}
    (hmode : after.mode = .Running (candidateFor board slot true))
    (hslots : after.slots = device.slots)
    (hload : boot_state_store_load after.copies =
      countAttempt (boot_state_store_load device.copies)) :
    Settled board slot (after.step board (.Confirm .Completes)) ∧
      (after.step board (.Confirm .Completes)).slots = device.slots := by
  have hpending : (boot_state_store_load after.copies).pending_slot = slot := by
    rw [hload, countAttempt_pending_slot, h.pending]
  have hgeneration : generationOf (boot_state_store_load after.copies) + 1 < 2 ^ 32 := by
    rw [hload, recordStep_generationOf (.count (sent_due h)) (load_inRange _), h.generation_eq]
    omega
  obtain ⟨hsettled, hkept⟩ := settled_confirmed h.valid hmode hpending hgeneration
    (bootable_congr (congrArg (Slots.image · slot) hslots) h.bootable)
  exact ⟨hsettled, hkept.trans hslots⟩

/-- After its first activation the slot is sent. -/
theorem activated_sent {before : BootUpdateSession} {copies : Copies}
    {image_crc32 session_id version : UInt32} {state : UpdateState}
    (h : Activated before copies binary image_crc32 session_id version 1 state)
    (hb : Bootable board state.slots (targetSlot copies)) :
    Sent board (targetSlot copies) binary (generationOf (boot_state_store_load copies) + 1)
      (ofUpdate state) := by
  have hslot := targetSlot_valid copies
  have hpending := congrArg BootStateRecord.pending_slot h.record
  have hattempts := congrArg BootStateRecord.pending_attempts h.record
  have hstatus := congrArg (status_for_slot · (targetSlot copies)) h.record
  rw [unstamped_pending_slot, unstamped_pending_slot,
    mark_slot_pending_pending_slot _ _ _ hslot] at hpending
  rw [unstamped_pending_attempts, unstamped_pending_attempts,
    mark_slot_pending_attempts _ _ _ hslot] at hattempts
  rw [status_unstamped, status_unstamped, mark_slot_pending_status _ _ _ hslot] at hstatus
  exact ⟨hslot, hpending, hattempts, hstatus, h.generation, h.holds, hb⟩

/-- The packets of the update lead from the update loop to the reset after them. -/
theorem line_update {transport : Transport} {cutting : Cutting transport} {image : List UInt8}
    {metadata : Metadata} (hfin : Finalized image binary metadata)
    (hfit : binary.length ≤ (APP_SLOT_SIZE board).toNat) {session : BootUpdateSession}
    (hvectors : vectorsAccepted board (imageOf binary) binary.length.toUInt32
      (slot_base board (targetSlot device.copies)) (slot_end board (targetSlot device.copies)))
    (hlater : LaterChecks (imageOf binary))
    (hroom : generationOf (boot_state_store_load device.copies) + 1 < 2 ^ 32)
    (session_id : UInt32) {ram : Ram} {frames : List CanFrame} {line : Line}
    (h : Listening (device.updateState session) ram frames [] line.target)
    (hjoined : Joined line.reassembler)
    (hwrites : session.session_active = true → session.target_slot = targetSlot device.copies) :
    ∃ last sent,
      ServesAll (answer board cutting)
        (uart_update.run_update binary metadata.image_crc32 session_id true) line last ∧
      last.target = reset board sent ram ∧
      Sent board (targetSlot device.copies) binary
        (generationOf (boot_state_store_load device.copies) + 1) sent ∧
      sent.slots.image (otherSlot (targetSlot device.copies)) =
        device.slots.image (otherSlot (targetSlot device.copies)) := by
  obtain ⟨packets, hpackets⟩ : ∃ packets, packets =
    uart_update.run_update binary metadata.image_crc32 session_id false := ⟨_, rfl⟩
  have hquiet : ∀ packet ∈ packets, packet.command ≠ UPDATE_CMD_ACTIVATE := by
    rw [hpackets]
    exact fun packet hmem => uart_update.run_update_quiet hmem
  have hfits : ∀ packet ∈ packets, packet.payload_len.toNat ≤ 128 := by
    rw [hpackets]
    exact fun packet hmem => run_update_fits hmem
  have hrun := @transfer_run board binary session_id image metadata hfin hfit
    (device.updateState session) hvectors (packets.map (plain board))
    (by rw [← hpackets]; exact Repeated.once (plain_once board packets))
  obtain ⟨mid, hserves, hmid, frames, hlistening⟩ := @line_packets board transport cutting packets
    hfits hquiet _ ram frames line h hjoined hrun.1
  obtain ⟨hok, hactivated⟩ := activate_first
    (plain_carries board (uart_update.bare UPDATE_CMD_ACTIVATE session_id)) hrun.2 hroom
  obtain ⟨last, hlast, -, hreset, -⟩ := @line_packet board transport cutting _ (Nat.zero_le _) _ ram
    frames mid hlistening hmid hok
  have hrequested := congrArg BootUpdateSession.reset_requested hactivated.session_eq
  have hb := finished_bootable hfin hfit hvectors hlater hactivated.holds
  refine ⟨last, _, ?_, hreset hrequested, activated_sent hactivated hb, ?_⟩
  · rw [run_update_activated, ← hpackets]
    exact hserves.append ⟨last, hlast, rfl⟩
  · have hkept := @slot_kept board (plain board (uart_update.bare UPDATE_CMD_ACTIVATE session_id))
      (device.updateState session) (targetSlot device.copies)
      (otherSlot (targetSlot device.copies)) (packets.map (plain board))
      (plain_lawful board packets) ?_ (driver_lawful board noFault) (otherSlot_valid _) ?_
      ⟨rfl, hwrites⟩
    · unfold processAll at hkept
      rw [runAll_append] at hkept
      exact hkept
    · intro delivery hmem
      obtain ⟨packet, hsent, rfl⟩ := List.mem_map.mp hmem
      exact hquiet packet hsent
    · rcases targetSlot_valid device.copies with hslot | hslot <;> rw [hslot] <;> decide

end

/-- From the running application, or from the update loop, the tool updates the device
and returns 0, over the UART or over CAN, however the polls cut what it sends. The
device then runs the image as a trial, and has not touched the other slot. When the
application confirms, the device is settled on the image. -/
theorem updates_device (board : Board) {transport : Transport} (cutting : Cutting transport)
    {image binary manifest : List UInt8} {version : Int} {app_name board_name : Text}
    {relocation : Option Relocation} {metadata : Metadata}
    (hfinalize : finalize_bytes image version app_name board_name relocation =
      .ok (binary, manifest, metadata))
    (hfit : binary.length ≤ (APP_SLOT_SIZE board).toNat) {args : Arguments}
    (hid : IsWord args.session_id)
    (hnames : (args.app_name = none ∨ args.app_name = some metadata.application_name) ∧
      (args.board_name = none ∨ args.board_name = some metadata.board_name))
    (hturns : 0 < args.turns) (hactivate : args.no_activate = false) {device : Device} {ram : Ram}
    {line : Line} (hstart : Updatable board args device ram line.target)
    (hjoined : Joined line.reassembler)
    (hvectors : vectorsAccepted board (imageOf binary) binary.length.toUInt32
      (slot_base board (targetSlot device.copies)) (slot_end board (targetSlot device.copies)))
    (hlater : LaterChecks (imageOf binary))
    (hroom : generationOf (boot_state_store_load device.copies) + 3 < 2 ^ 32) :
    let slot := targetSlot device.copies
    let out := update_tool.main (answer board cutting) args binary (sidecar metadata) line
    out.1 = .ok 0 ∧ ∃ after later agent, out.2.target = .Application after later agent ∧
      after.mode = .Running (candidateFor board slot true) ∧
      Holds (after.slots.image slot) binary ∧
      after.slots.image (otherSlot slot) = device.slots.image (otherSlot slot) ∧
      Settled board slot (after.step board (.Confirm .Completes)) ∧
      Holds ((after.step board (.Confirm .Completes)).slots.image slot) binary := by
  have hfin := finalize_bytes_ok hfinalize
  obtain ⟨opened, hopens, hopened, frames, session, quiet, hnone, hlistening, hwrites⟩ :=
    @line_opens board transport cutting args device ram line hturns hstart hjoined
  obtain ⟨last, sent, hserves, htarget, hsent, hother⟩ := @line_update board binary device transport
    cutting image metadata hfin hfit session hvectors hlater (by omega) args.word quiet frames
    opened hlistening hopened hwrites
  obtain ⟨after, later, agent, hreset, hmode, hslots, hload⟩ := sent_boots hsent (by omega) hnone
  obtain ⟨hsettled, hkept⟩ := sent_confirms hsent (by omega) hmode hslots hload
  have hmain := @main_served Line (answer board cutting) args hid binary (sidecar metadata)
    metadata.image_crc32 line opened last (finalized_artifacts hfin hnames.1 hnames.2) rfl
    (by rw [length_finalized hfin]; exact hfin.size_lt) hopens
    (fun packet hmem => run_update_fits hmem) (by rw [hactivate]; exact hserves)
  intro slot out
  have hout : out = (.ok 0, last) := hmain
  rw [hout]
  refine ⟨rfl, after, later, agent, htarget.trans hreset, hmode, ?_, ?_, hsettled, ?_⟩
  · rw [hslots]
    exact hsent.holds
  · rw [hslots]
    exact hother
  · rw [hkept]
    exact hsent.holds

/-! ### A small update -/

/-- Every packet over the UART comes in one poll. -/
def wholePolls : Cutting .Uart where
  cut bytes := if h : bytes.length ≤ BOOT_UPDATE_MAX_BYTES_PER_POLL then [.Uart bytes h] else []
  inputs_eq bytes h := by
    have hfew : bytes.length ≤ BOOT_UPDATE_MAX_BYTES_PER_POLL :=
      Nat.le_trans h (Nat.le_mul_of_pos_right _ (by decide))
    simp [hfew, carried, Poll.inputs]

/-- A device that was shipped with the small image in slot A, after its first reset. -/
def smallLine : Line where
  target := reset .F446 (firstDevice (image_for_mode .ConfirmedA) handover.smallSlots) fun _ => 0
  reassembler := host_can.init ((update_can_response_id UPDATE_CAN_NODE_ID).toNat : Int)

theorem small_starts : ∃ device ram,
    smallLine.target = .Application device ram (update_agent_init .NoReturn) ∧
      device.copies = image_for_mode .ConfirmedA := by
  have hjumps := handover.small_jumps
  unfold smallLine
  generalize handover.smallSlots = slots at hjumps ⊢
  generalize image_for_mode .ConfirmedA = copies at hjumps ⊢
  obtain ⟨hmode, -, hcopies⟩ := @boot_starts .F446 (firstDevice copies slots) (fun _ => 0)
    .Completes .Completes _ _ _ hjumps.no_request hjumps.path hjumps.returns hjumps.bootable
  obtain ⟨later, hreset⟩ := reset_runs hmode
  exact ⟨_, later, hreset, hcopies⟩

theorem updates_device_small : ∃ manifest metadata,
    finalize_bytes (smallImage 0) 1 (ofString "app") (ofString "board")
        (some ⟨(2 : Nat), 0, 0, 0⟩) =
      .ok (smallBinary 0 2, manifest, metadata) ∧
    let out := update_tool.main (answer .F446 wholePolls) ⟨7, 1, none, none, false, false, false⟩
      (smallBinary 0 2) (sidecar metadata) smallLine
    out.1 = .ok 0 ∧ ∃ after later agent, out.2.target = .Application after later agent ∧
      after.mode = .Running (candidateFor .F446 BOOT_SLOT_B true) ∧
      Settled .F446 BOOT_SLOT_B (after.step .F446 (.Confirm .Completes)) := by
  obtain ⟨manifest, metadata, hfinalize, -⟩ := smallBinary_finalized 0 (by decide : 2 < 2 ^ 32)
  obtain ⟨device, ram, htarget, hcopies⟩ := small_starts
  have hslot : targetSlot device.copies = BOOT_SLOT_B := by
    rw [hcopies, targetSlot_confirmedA]
  have hlater : LaterChecks (imageOf (smallBinary 0 2)) := by
    have hholds := imageOf_holds (smallBinary 0 2)
    generalize imageOf (smallBinary 0 2) = image at hholds ⊢
    have hb := @handover.small_bootable .F446 { a := image, b := image } BOOT_SLOT_A hholds
    exact (relocation_iff hb.image hb.vectors).mp hb.relocation
  obtain ⟨hzero, after, later, agent, hafter, hmode, -, -, hsettled, -⟩ :=
    @updates_device .F446 .Uart wholePolls _ _ _ _ _ _ _ _ hfinalize
      (small_fits 0 (by decide)) ⟨7, 1, none, none, false, false, false⟩ (by decide)
      ⟨Or.inl rfl, Or.inl rfl⟩ Nat.one_pos rfl device ram smallLine
      (@Updatable.running .F446 _ device ram _ [] ⟨_, htarget, rfl, rfl, rfl, hears_init _ _⟩
        ⟨rfl, rfl⟩) joined_init
      (small_vectors_target 0 (by decide) (by decide) _) hlater
      (by rw [hcopies, provisioned_generation (.image .ConfirmedA)]; decide)
  rw [hslot] at hmode hsettled
  exact ⟨manifest, metadata, hfinalize, hzero, after, later, agent, hafter, hmode, hsettled⟩

end stm32_vibe.full_update
