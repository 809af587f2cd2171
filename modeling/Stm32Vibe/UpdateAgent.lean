-- The update agent of the running application. It answers what completes on each
-- transport, and an ENTER_UPDATE makes it reset the device: always after its ACK
-- was sent and drained on the transport that asked, and nothing is sent after it.
import Stm32Vibe.CanTransmit
import Stm32Vibe.Retransmission

namespace stm32_vibe.update_agent

open little_endian update_protocol update_stream update_can can_transport host_can update_loop
  can_transmit

/-! ## The agent -/

/-- `reset_callback`: a null pointer, a function that returns, as in the tests, or
one that resets the device. -/
inductive ResetCallback where
  | Null
  | Returns
  | NoReturn
deriving DecidableEq, Repr

/-- What the agent makes of its drivers, in order. -/
inductive Act where
  | Uart (bytes : List UInt8)
  | DrainUart
  /-- The frames of an ACK that `can_send` took. -/
  | Can (frames : List CanFrame)
  | DrainCan
  | Reset
deriving DecidableEq, Repr

/-- The variables of the agent, with what it did. After a reset that does not
return it is `halted`. -/
structure UpdateAgent where
  stream : UpdateStream
  payload : Memory
  reset_callback : ResetCallback
  can_reassembly : UpdateCanReassembly
  acts : List Act
  can_calls : Nat
  halted : Bool

def update_agent_init (reset_fn : ResetCallback) : UpdateAgent where
  stream := update_stream_init
  payload := fun _ => 0
  reset_callback := reset_fn
  can_reassembly := update_can_reassembly_init
  acts := []
  can_calls := 0
  halted := false

/-- The encoded ACK, and no bytes when the encoder fails. -/
def encode_ack (command : UInt8) (status : UpdateStatus) (session_id sequence : UInt32)
    (capacity : Nat) : List UInt8 :=
  (update_protocol_encode (ackPacket command status session_id sequence) capacity).toOption.getD []

def send_uart_ack (command : UInt8) (status : UpdateStatus) (session_id sequence : UInt32)
    (agent : UpdateAgent) : UpdateAgent :=
  let encoded := encode_ack command status session_id sequence UPDATE_PROTOCOL_MAX_PACKET_SIZE
  if encoded.length ≠ 0 then { agent with acts := agent.acts ++ [.Uart encoded] } else agent

def reset (agent : UpdateAgent) : UpdateAgent :=
  match agent.reset_callback with
  | .Null => agent
  | .Returns => { agent with acts := agent.acts ++ [.Reset] }
  | .NoReturn => { agent with acts := agent.acts ++ [.Reset], halted := true }

/-- One round of the first loop of `update_agent_poll`. -/
def receiveByte (agent : UpdateAgent) (byte : UInt8) : UpdateAgent :=
  if agent.halted then agent
  else
    let out := update_stream_feed agent.stream [byte] emptyPacket agent.payload
      UPDATE_PROTOCOL_MAX_PAYLOAD
    let packet := out.packet
    let agent := { agent with stream := out.stream, payload := out.payload }
    if out.status = .Ok then
      if packet.command = UPDATE_CMD_DISCOVER then
        send_uart_ack packet.command .Ok packet.session_id packet.sequence agent
      else if packet.command = UPDATE_CMD_ENTER_UPDATE then
        let agent := send_uart_ack packet.command .Ok packet.session_id packet.sequence agent
        reset { agent with acts := agent.acts ++ [.DrainUart] }
      else
        send_uart_ack packet.command .InvalidArgument packet.session_id packet.sequence agent
    else if out.status ≠ .BadLength then send_uart_ack 0 out.status 0 0 agent
    else agent

section
variable (results : Nat → CanResult) (node_id : UInt8)

/-- The retries of `send_can_ack`. -/
def CAN_ACK_RETRIES : Nat := 100000

def sendFrame (frame : CanFrame) (bus : Bus) : Bool × Bus :=
  let (result, bus) := sendRetry results frame CAN_ACK_RETRIES bus
  (result = .Ok, bus)

def send_can_ack (command : UInt8) (status : UpdateStatus) (session_id sequence : UInt32)
    (agent : UpdateAgent) : UpdateAgent :=
  let encoded := encode_ack command status session_id sequence UPDATE_PROTOCOL_MAX_PACKET_SIZE
  if encoded.length = 0 then agent
  else
    match update_can_fragmenter_init (update_can_response_id node_id) encoded with
    | none => agent
    | some fragmenter =>
      let bus := (sendFrames (sendFrame results) (fragments fragmenter).1
        { calls := agent.can_calls, frames := [] }).2
      { agent with acts := agent.acts ++ [.Can bus.frames], can_calls := bus.calls }

/-- One round of the second loop, which only the boards with CAN have. -/
def receiveFrame (agent : UpdateAgent) (frame : CanFrame) : UpdateAgent :=
  if agent.halted then agent
  else
    let out := update_can_reassembly_feed agent.can_reassembly frame
      (update_can_request_id node_id)
    let agent := { agent with can_reassembly := out.2 }
    match out.1.result with
    | .Complete encoded =>
      let (decode_status, packet, payload) := update_protocol_decode encoded emptyPacket
        agent.payload UPDATE_PROTOCOL_MAX_PAYLOAD
      let agent := { agent with payload }
      if decode_status ≠ .Ok then send_can_ack results node_id 0 decode_status 0 0 agent
      else if packet.command = UPDATE_CMD_DISCOVER ∨
          packet.command = UPDATE_CMD_ENTER_UPDATE then
        let agent :=
          send_can_ack results node_id packet.command .Ok packet.session_id packet.sequence agent
        if packet.command = UPDATE_CMD_ENTER_UPDATE then
          reset { agent with acts := agent.acts ++ [.DrainCan] }
        else agent
      else
        send_can_ack results node_id packet.command .InvalidArgument packet.session_id
          packet.sequence agent
    | _ => agent

/-- `update_agent_poll`, with what `uart_receive_byte` and `can_receive` give until
they have no more. -/
def update_agent_poll (agent : UpdateAgent) (rx : List UInt8 × List CanFrame) : UpdateAgent :=
  rx.2.foldl (receiveFrame results node_id) (rx.1.foldl receiveByte agent)

def UpdateAgent.run (agent : UpdateAgent) (polls : List (List UInt8 × List CanFrame)) :
    UpdateAgent :=
  polls.foldl (update_agent_poll results node_id) agent

end

/-! ## The answers -/

def entersUpdate (result : Except UpdateStatus UpdatePacket) : Bool :=
  result.toOption.any fun packet => packet.command = UPDATE_CMD_ENTER_UPDATE

/-- The status that the application has for a command: it only knows how to enter the update. -/
def agentStatus (command : UInt8) : UpdateStatus :=
  if command = UPDATE_CMD_DISCOVER ∨ command = UPDATE_CMD_ENTER_UPDATE then .Ok
  else .InvalidArgument

def answer : Except UpdateStatus UpdatePacket → UpdatePacket
  | .ok packet =>
    ackPacket packet.command (agentStatus packet.command) packet.session_id packet.sequence
  | .error status => ackPacket 0 status 0 0

/-- What follows the ACK of an ENTER_UPDATE. -/
def resetting (callback : ResetCallback) (drain : Act) (result : Except UpdateStatus UpdatePacket) :
    List Act :=
  if entersUpdate result then drain :: (if callback = .Null then [] else [.Reset]) else []

/-- The acts so far, and the calls of `can_send`. -/
structure Said where
  acts : List Act
  can_calls : Nat

def UpdateAgent.said (agent : UpdateAgent) : Said where
  acts := agent.acts
  can_calls := agent.can_calls

/-- One completion is answered on its transport. -/
def say (results : Nat → CanResult) (node_id : UInt8) (callback : ResetCallback) (said : Said) :
    Completion → Said
  | (.Uart, result) =>
    { said with acts := said.acts ++ .Uart (encoded (answer result)) ::
        resetting callback .DrainUart result }
  | (.Can, result) =>
    let bus := (sendFrames (sendFrame results)
      (firmwareFrames (update_can_response_id node_id) (encoded (answer result)))
      { calls := said.can_calls, frames := [] }).2
    { acts := said.acts ++ .Can bus.frames :: resetting callback .DrainCan result
      can_calls := bus.calls }

/-- The completions that are answered: a reset that does not return ends them. -/
def heard (callback : ResetCallback) : List Completion → List Completion
  | [] => []
  | completion :: done =>
    if callback = .NoReturn ∧ entersUpdate completion.2 = true then [completion]
    else completion :: heard callback done

/-! ## One byte or frame -/

theorem encode_ack_eq (command : UInt8) (status : UpdateStatus) (session_id sequence : UInt32) :
    encode_ack command status session_id sequence UPDATE_PROTOCOL_MAX_PACKET_SIZE =
      encoded (ackPacket command status session_id sequence) :=
  congrArg (fun encoded : Except UpdateStatus (List UInt8) => encoded.toOption.getD [])
    (encode_ack_ok command status session_id sequence)

theorem length_ack (command : UInt8) (status : UpdateStatus) (session_id sequence : UInt32) :
    (encoded (ackPacket command status session_id sequence)).length = 22 := by
  rw [length_encoded]
  rfl

/-- What is waiting on each transport is what it gives alone. -/
structure Hears (agent : UpdateAgent) (node_id : UInt8) (bytes : List UInt8)
    (frames : List CanFrame) : Prop where
  buffer : agent.stream.buffer = (scan bytes).2
  reassembly : agent.can_reassembly =
    feedAll (update_can_request_id node_id) update_can_reassembly_init frames

/-- The agent has answered a completion, and what waits is untouched. -/
structure Answered (results : Nat → CanResult) (node_id : UInt8) (completion : Completion)
    (before after : UpdateAgent) : Prop where
  said_eq : after.said = say results node_id before.reset_callback before.said completion
  stream_eq : after.stream = before.stream
  reassembly_eq : after.can_reassembly = before.can_reassembly
  callback_eq : after.reset_callback = before.reset_callback
  halted_iff : after.halted = true ↔
    before.reset_callback = .NoReturn ∧ entersUpdate completion.2 = true

section
variable {results : Nat → CanResult} {node_id : UInt8} {agent : UpdateAgent}

theorem send_uart_ack_said (command : UInt8) (status : UpdateStatus)
    (session_id sequence : UInt32) (agent : UpdateAgent) :
    send_uart_ack command status session_id sequence agent =
      { agent with acts := agent.acts ++
          [.Uart (encoded (ackPacket command status session_id sequence))] } := by
  unfold send_uart_ack
  rw [encode_ack_eq]
  exact if_pos (by rw [length_ack]; decide)

theorem send_can_ack_said (small : node_id ≤ UPDATE_CAN_MAX_NODE_ID) (command : UInt8)
    (status : UpdateStatus) (session_id sequence : UInt32) (agent : UpdateAgent) :
    let bus := (sendFrames (sendFrame results)
      (firmwareFrames (update_can_response_id node_id)
        (encoded (ackPacket command status session_id sequence)))
      { calls := agent.can_calls, frames := [] }).2
    send_can_ack results node_id command status session_id sequence agent =
      { agent with acts := agent.acts ++ [.Can bus.frames], can_calls := bus.calls } := by
  have hlength := length_ack command status session_id sequence
  have hinit := @init_ok (encoded (ackPacket command status session_id sequence)) (by omega)
    (by omega) _ (response_id_le small)
  have hne : ¬ (encoded (ackPacket command status session_id sequence)).length = 0 := by
    rw [hlength]
    decide
  intro bus
  unfold bus send_can_ack firmwareFrames
  rw [encode_ack_eq]
  dsimp only
  rw [if_neg hne, hinit]

/-- The reset after the drain, as `say` has it. -/
theorem reset_said (agent : UpdateAgent) (drain : Act) (hhalted : agent.halted = false) :
    let after := reset { agent with acts := agent.acts ++ [drain] }
    after.acts = agent.acts ++
        drain :: (if agent.reset_callback = .Null then [] else [.Reset]) ∧
      after.can_calls = agent.can_calls ∧ after.stream = agent.stream ∧
      after.can_reassembly = agent.can_reassembly ∧
      after.reset_callback = agent.reset_callback ∧
      (after.halted = true ↔ agent.reset_callback = .NoReturn) := by
  unfold reset
  cases hcallback : agent.reset_callback with
  | Null => simp [hhalted]
  | Returns => simp [hhalted]
  | NoReturn => simp

/-- The branches of `receiveByte` after a packet, on an agent that has fed the byte. -/
theorem uart_answered (packet : UpdatePacket) (hhalted : agent.halted = false) :
    Answered results node_id (.Uart, .ok packet) agent
      (if packet.command = UPDATE_CMD_DISCOVER then
        send_uart_ack packet.command .Ok packet.session_id packet.sequence agent
      else if packet.command = UPDATE_CMD_ENTER_UPDATE then
        let agent := send_uart_ack packet.command .Ok packet.session_id packet.sequence agent
        reset { agent with acts := agent.acts ++ [.DrainUart] }
      else
        send_uart_ack packet.command .InvalidArgument packet.session_id packet.sequence agent) := by
  by_cases hdiscover : packet.command = UPDATE_CMD_DISCOVER
  · have henters : entersUpdate (.ok packet) = false := by
      show decide (packet.command = UPDATE_CMD_ENTER_UPDATE) = false
      rw [hdiscover]
      decide
    rw [if_pos hdiscover, send_uart_ack_said]
    refine ⟨?_, rfl, rfl, rfl, by simp [henters, hhalted]⟩
    simp [say, answer, agentStatus, resetting, henters, hdiscover, UpdateAgent.said]
  · rw [if_neg hdiscover]
    by_cases henter : packet.command = UPDATE_CMD_ENTER_UPDATE
    · have henters : entersUpdate (.ok packet) = true := by
        show decide (packet.command = UPDATE_CMD_ENTER_UPDATE) = true
        rw [henter]
        decide
      rw [if_pos henter]
      dsimp only
      rw [send_uart_ack_said]
      obtain ⟨hacts, hcalls, hstream, hreassembly, hcallback, hhalts⟩ := reset_said
        { agent with acts := agent.acts ++
          [.Uart (encoded (ackPacket packet.command .Ok packet.session_id packet.sequence))] }
        .DrainUart hhalted
      refine ⟨?_, hstream, hreassembly, hcallback, hhalts.trans (by simp [henters])⟩
      unfold UpdateAgent.said
      rw [hacts, hcalls]
      simp [say, answer, agentStatus, resetting, henters, henter]
    · have henters : entersUpdate (.ok packet) = false := by
        show decide (packet.command = UPDATE_CMD_ENTER_UPDATE) = false
        exact decide_eq_false henter
      rw [if_neg henter, send_uart_ack_said]
      refine ⟨?_, rfl, rfl, rfl, by simp [henters, hhalted]⟩
      simp [say, answer, agentStatus, resetting, henters, hdiscover, henter, UpdateAgent.said]

theorem uart_error_answered (status : UpdateStatus) (hhalted : agent.halted = false) :
    Answered results node_id (.Uart, .error status) agent
      (send_uart_ack 0 status 0 0 agent) := by
  rw [send_uart_ack_said]
  refine ⟨?_, rfl, rfl, rfl, by simp [entersUpdate, hhalted, Except.toOption]⟩
  simp [say, answer, resetting, entersUpdate, Except.toOption, UpdateAgent.said]

/-- The same branches of `receiveFrame`. -/
theorem can_answered (small : node_id ≤ UPDATE_CAN_MAX_NODE_ID) (packet : UpdatePacket)
    (hhalted : agent.halted = false) :
    Answered results node_id (.Can, .ok packet) agent
      (if packet.command = UPDATE_CMD_DISCOVER ∨ packet.command = UPDATE_CMD_ENTER_UPDATE then
        let agent :=
          send_can_ack results node_id packet.command .Ok packet.session_id packet.sequence agent
        if packet.command = UPDATE_CMD_ENTER_UPDATE then
          reset { agent with acts := agent.acts ++ [.DrainCan] }
        else agent
      else
        send_can_ack results node_id packet.command .InvalidArgument packet.session_id
          packet.sequence agent) := by
  by_cases henter : packet.command = UPDATE_CMD_ENTER_UPDATE
  · have henters : entersUpdate (.ok packet) = true := by
      show decide (packet.command = UPDATE_CMD_ENTER_UPDATE) = true
      rw [henter]
      decide
    rw [if_pos (Or.inr henter)]
    dsimp only
    rw [if_pos henter, send_can_ack_said small]
    obtain ⟨hacts, hcalls, hstream, hreassembly, hcallback, hhalts⟩ := reset_said
      { agent with
        acts := agent.acts ++ [.Can (sendFrames (sendFrame results)
          (firmwareFrames (update_can_response_id node_id)
            (encoded (ackPacket packet.command .Ok packet.session_id packet.sequence)))
          { calls := agent.can_calls, frames := [] }).2.frames]
        can_calls := (sendFrames (sendFrame results)
          (firmwareFrames (update_can_response_id node_id)
            (encoded (ackPacket packet.command .Ok packet.session_id packet.sequence)))
          { calls := agent.can_calls, frames := [] }).2.calls }
      .DrainCan hhalted
    refine ⟨?_, hstream, hreassembly, hcallback, hhalts.trans (by simp [henters])⟩
    unfold UpdateAgent.said
    rw [hacts, hcalls]
    simp [say, answer, agentStatus, resetting, henters, henter]
  · have henters : entersUpdate (.ok packet) = false := by
      show decide (packet.command = UPDATE_CMD_ENTER_UPDATE) = false
      exact decide_eq_false henter
    by_cases hdiscover : packet.command = UPDATE_CMD_DISCOVER
    · rw [if_pos (Or.inl hdiscover)]
      dsimp only
      rw [if_neg henter, send_can_ack_said small]
      refine ⟨?_, rfl, rfl, rfl, by simp [henters, hhalted]⟩
      simp [say, answer, agentStatus, resetting, henters, hdiscover, UpdateAgent.said]
    · rw [if_neg (by simp [hdiscover, henter]), send_can_ack_said small]
      refine ⟨?_, rfl, rfl, rfl, by simp [henters, hhalted]⟩
      simp [say, answer, agentStatus, resetting, henters, hdiscover, henter, UpdateAgent.said]

theorem can_error_answered (small : node_id ≤ UPDATE_CAN_MAX_NODE_ID) (status : UpdateStatus)
    (hhalted : agent.halted = false) :
    Answered results node_id (.Can, .error status) agent
      (send_can_ack results node_id 0 status 0 0 agent) := by
  rw [send_can_ack_said small]
  refine ⟨?_, rfl, rfl, rfl, by simp [entersUpdate, hhalted, Except.toOption]⟩
  simp [say, answer, resetting, entersUpdate, Except.toOption, UpdateAgent.said]

/-- What one input does to an agent that is not halted: nothing yet, or an answer. -/
structure Heard (results : Nat → CanResult) (node_id : UInt8) (bytes : List UInt8)
    (frames : List CanFrame) (done : List Completion) (before after : UpdateAgent) : Prop where
  hears : Hears after node_id bytes frames
  callback_eq : after.reset_callback = before.reset_callback
  outcome : done = [] ∧ after.said = before.said ∧ after.halted = false ∨
    ∃ completion, done = [completion] ∧
      after.said = say results node_id before.reset_callback before.said completion ∧
      (after.halted = true ↔
        before.reset_callback = .NoReturn ∧ entersUpdate completion.2 = true)

theorem receiveByte_heard {bytes : List UInt8} {frames : List CanFrame}
    (hhalted : agent.halted = false) (h : Hears agent node_id bytes frames) (byte : UInt8) :
    Heard results node_id (bytes ++ [byte]) frames
      ((uartCompletes bytes byte).map (Transport.Uart, ·)) agent (receiveByte agent byte) := by
  have hwaiting : Waiting agent.stream.buffer := by
    rw [h.buffer]
    exact scan_waiting bytes
  have hspec := feed_spec hwaiting [byte] emptyPacket agent.payload
  have hmore : scan (bytes ++ [byte]) =
      ((scan bytes).1 ++ (scan (agent.stream.buffer ++ [byte])).1,
        (scan (agent.stream.buffer ++ [byte])).2) := by
    rw [h.buffer]
    exact scan_append bytes [byte]
  unfold uartCompletes
  rw [hmore]
  simp only [List.drop_left]
  unfold receiveByte
  rw [if_neg (by simp [hhalted])]
  generalize update_stream_feed agent.stream [byte] emptyPacket agent.payload
    UPDATE_PROTOCOL_MAX_PAYLOAD = out at hspec ⊢
  dsimp only
  rcases hspec.outcome with ⟨hstatus, -, hscan⟩ | ⟨hstatus, k, hpos, hle, -, hscan⟩
  · have hnot : ¬ out.status = .Ok := by simp [hstatus]
    rw [if_neg hnot, if_neg (not_not.mpr hstatus)]
    refine ⟨⟨?_, h.reassembly⟩, rfl, Or.inl ⟨?_, rfl, hhalted⟩⟩
    · rw [hmore, hscan]
    · rw [hscan]
      rfl
  · obtain rfl : k = 1 := by
      rw [List.length_singleton] at hle
      omega
    rw [List.take_succ_cons, List.take_zero] at hscan
    have hfed : out.stream.buffer = (scan (bytes ++ [byte])).2 := by rw [hmore, hscan]
    rw [hscan]
    by_cases hok : out.status = .Ok
    · have hresult : out.result = .ok out.packet := by simp [update_stream.FeedOut.result, hok]
      have hanswered := @uart_answered results node_id
        { agent with stream := out.stream, payload := out.payload } out.packet hhalted
      rw [if_pos hok, hresult]
      refine ⟨⟨?_, ?_⟩, hanswered.callback_eq, Or.inr ⟨_, rfl, hanswered.said_eq,
        hanswered.halted_iff⟩⟩
      · rw [hanswered.stream_eq]
        exact hfed
      · exact hanswered.reassembly_eq.trans h.reassembly
    · have hresult : out.result = .error out.status := by simp [update_stream.FeedOut.result, hok]
      have hanswered := @uart_error_answered results node_id
        { agent with stream := out.stream, payload := out.payload } out.status hhalted
      rw [if_neg hok, if_pos hstatus, hresult]
      refine ⟨⟨?_, ?_⟩, hanswered.callback_eq, Or.inr ⟨_, rfl, hanswered.said_eq,
        hanswered.halted_iff⟩⟩
      · rw [hanswered.stream_eq]
        exact hfed
      · exact hanswered.reassembly_eq.trans h.reassembly

theorem receiveFrame_heard (small : node_id ≤ UPDATE_CAN_MAX_NODE_ID) {bytes : List UInt8}
    {frames : List CanFrame} (hhalted : agent.halted = false)
    (h : Hears agent node_id bytes frames) (frame : CanFrame) :
    Heard results node_id bytes (frames ++ [frame])
      ((canCompletes (update_can_request_id node_id) frames frame).map (Transport.Can, ·)) agent
      (receiveFrame results node_id agent frame) := by
  have hconcat := feedAll_concat (update_can_request_id node_id) update_can_reassembly_init frames
    frame
  unfold receiveFrame canCompletes
  rw [if_neg (by simp [hhalted]), h.reassembly]
  dsimp only
  cases hresult : (update_can_reassembly_feed (feedAll (update_can_request_id node_id)
      update_can_reassembly_init frames) frame (update_can_request_id node_id)).1.result with
  | None => exact ⟨⟨h.buffer, hconcat.symm⟩, rfl, Or.inl ⟨rfl, rfl, hhalted⟩⟩
  | Error => exact ⟨⟨h.buffer, hconcat.symm⟩, rfl, Or.inl ⟨rfl, rfl, hhalted⟩⟩
  | Complete encoded =>
    have hdecoded := decode_result encoded emptyPacket agent.payload
    dsimp only at hdecoded ⊢
    generalize update_protocol_decode encoded emptyPacket agent.payload
      UPDATE_PROTOCOL_MAX_PAYLOAD = out at hdecoded ⊢
    rw [← hdecoded]
    by_cases hok : out.1 = .Ok
    · have hanswered := @can_answered results node_id
        { agent with
          can_reassembly := (update_can_reassembly_feed (feedAll (update_can_request_id node_id)
            update_can_reassembly_init frames) frame (update_can_request_id node_id)).2
          payload := out.2.2 } small out.2.1 hhalted
      rw [if_neg (not_not.mpr hok), if_pos hok]
      refine ⟨⟨?_, ?_⟩, hanswered.callback_eq, Or.inr ⟨_, rfl, hanswered.said_eq,
        hanswered.halted_iff⟩⟩
      · rw [hanswered.stream_eq]
        exact h.buffer
      · exact hanswered.reassembly_eq.trans hconcat.symm
    · have hanswered := @can_error_answered results node_id
        { agent with
          can_reassembly := (update_can_reassembly_feed (feedAll (update_can_request_id node_id)
            update_can_reassembly_init frames) frame (update_can_request_id node_id)).2
          payload := out.2.2 } small out.1 hhalted
      rw [if_pos hok, if_neg hok]
      refine ⟨⟨?_, ?_⟩, hanswered.callback_eq, Or.inr ⟨_, rfl, hanswered.said_eq,
        hanswered.halted_iff⟩⟩
      · rw [hanswered.stream_eq]
        exact h.buffer
      · exact hanswered.reassembly_eq.trans hconcat.symm

/-! ## Any polls -/

def receive (results : Nat → CanResult) (node_id : UInt8) (agent : UpdateAgent) :
    Input → UpdateAgent
  | .Byte byte => receiveByte agent byte
  | .Frame frame => receiveFrame results node_id agent frame

/-- The bytes and frames of the polls, in the order in which they are read. -/
def pollInputs (polls : List (List UInt8 × List CanFrame)) : List Input :=
  polls.flatMap fun rx => rx.1.map .Byte ++ rx.2.map .Frame

theorem run_eq (polls : List (List UInt8 × List CanFrame)) :
    agent.run results node_id polls =
      (pollInputs polls).foldl (receive results node_id) agent := by
  induction polls generalizing agent with
  | nil => rfl
  | cons rx polls ih =>
    unfold UpdateAgent.run pollInputs at *
    rw [List.foldl_cons, ih, List.flatMap_cons, List.foldl_append, List.foldl_append,
      List.foldl_map, List.foldl_map]
    rfl

/-- After a reset that does not return, nothing happens. -/
theorem halted_stays (h : agent.halted = true) (inputs : List Input) :
    inputs.foldl (receive results node_id) agent = agent := by
  induction inputs with
  | nil => rfl
  | cons input inputs ih =>
    have hfirst : receive results node_id agent input = agent := by
      cases input with
      | Byte byte => exact if_pos h
      | Frame frame => exact if_pos h
    rw [List.foldl_cons, hfirst]
    exact ih

/-- The state of an agent after the completions, that it has answered up to a reset. -/
structure HeardAll (results : Nat → CanResult) (node_id : UInt8) (done : List Completion)
    (before after : UpdateAgent) : Prop where
  said_eq : after.said =
    (heard before.reset_callback done).foldl (say results node_id before.reset_callback) before.said
  halted_iff : after.halted = true ↔ before.reset_callback = .NoReturn ∧
    ∃ completion ∈ done, entersUpdate completion.2 = true

/-- One input's completions go before those of the rest. -/
theorem HeardAll.cons {bytes : List UInt8} {frames : List CanFrame} {first done : List Completion}
    {inputs : List Input} {next : UpdateAgent}
    (hfirst : Heard results node_id bytes frames first agent next)
    (hrest : next.halted = false → Hears next node_id bytes frames →
      HeardAll results node_id done next (inputs.foldl (receive results node_id) next)) :
    HeardAll results node_id (first ++ done) agent
      (inputs.foldl (receive results node_id) next) := by
  have hcallback := hfirst.callback_eq
  rcases hfirst.outcome with ⟨rfl, hsaid, hrunning⟩ | ⟨completion, rfl, hsaid, hhalts⟩
  · obtain ⟨hall, hhalted⟩ := hrest hrunning hfirst.hears
    rw [hcallback, hsaid] at hall
    rw [hcallback] at hhalted
    exact ⟨hall, hhalted⟩
  · rw [List.singleton_append]
    by_cases hstop : agent.reset_callback = .NoReturn ∧ entersUpdate completion.2 = true
    · have hdown := hhalts.mpr hstop
      rw [halted_stays hdown]
      refine ⟨?_, iff_of_true hdown ⟨hstop.1, completion, List.mem_cons_self .., hstop.2⟩⟩
      unfold heard
      rw [if_pos hstop]
      exact hsaid
    · have hrunning : next.halted = false := by
        rw [Bool.eq_false_iff]
        exact fun hdown => hstop (hhalts.mp hdown)
      obtain ⟨hall, hhalted⟩ := hrest hrunning hfirst.hears
      rw [hcallback, hsaid] at hall
      rw [hcallback] at hhalted
      refine ⟨?_, hhalted.trans ?_⟩
      · unfold heard
        rw [if_neg hstop]
        exact hall
      · refine and_congr_right fun hnoreturn => ?_
        rw [List.exists_mem_cons_iff]
        exact ⟨Or.inr, fun h => h.resolve_left fun henters => hstop ⟨hnoreturn, henters⟩⟩

theorem receiveAll_heard (small : node_id ≤ UPDATE_CAN_MAX_NODE_ID) (inputs : List Input)
    {bytes : List UInt8} {frames : List CanFrame} (hhalted : agent.halted = false)
    (h : Hears agent node_id bytes frames) :
    HeardAll results node_id (completions (update_can_request_id node_id) bytes frames inputs) agent
      (inputs.foldl (receive results node_id) agent) := by
  induction inputs generalizing agent bytes frames with
  | nil => exact ⟨rfl, by simp [hhalted, completions]⟩
  | cons input inputs ih =>
    cases input with
    | Byte byte =>
      exact @HeardAll.cons results node_id agent _ _ _ _ inputs (receiveByte agent byte)
        (receiveByte_heard hhalted h byte) ih
    | Frame frame =>
      exact @HeardAll.cons results node_id agent _ _ _ _ inputs
        (receiveFrame results node_id agent frame) (receiveFrame_heard small hhalted h frame) ih

end

theorem hears_init (callback : ResetCallback) (node_id : UInt8) :
    Hears (update_agent_init callback) node_id [] [] :=
  ⟨(congrArg Prod.snd waiting_nil).symm, rfl⟩

/-- Whatever the polls read from the two transports, in whatever order, the agent
answers what completes on each transport alone, one completion after the other, up to
the first ENTER_UPDATE if the reset does not return. -/
theorem polls_answered (results : Nat → CanResult) {node_id : UInt8}
    (small : node_id ≤ UPDATE_CAN_MAX_NODE_ID) (callback : ResetCallback)
    (polls : List (List UInt8 × List CanFrame)) :
    let final := (update_agent_init callback).run results node_id polls
    let done := completions (update_can_request_id node_id) [] [] (pollInputs polls)
    final.said = (heard callback done).foldl (say results node_id callback)
        { acts := [], can_calls := 0 } ∧
      (final.halted = true ↔
        callback = .NoReturn ∧ ∃ completion ∈ done, entersUpdate completion.2 = true) ∧
      ofTransport .Uart done = (scan (inputBytes (pollInputs polls))).1 ∧
      ofTransport .Can done =
        canResults (update_can_request_id node_id) [] (inputFrames (pollInputs polls)) := by
  have hall :=
    @receiveAll_heard results node_id (update_agent_init callback) small (pollInputs polls)
    [] [] rfl (hears_init callback node_id)
  intro final done
  have hrun : final = (pollInputs polls).foldl (receive results node_id)
      (update_agent_init callback) := run_eq polls
  rw [hrun]
  refine ⟨hall.said_eq, hall.halted_iff, ?_, can_completions _ [] [] _⟩
  have huart := uart_completions (update_can_request_id node_id) [] [] (pollInputs polls)
  rwa [show scan ([] : List UInt8) = ([], []) from waiting_nil] at huart

/-- DISCOVER, ENTER_UPDATE and one more DISCOVER in one poll. -/
theorem polls_answered_enter :
    let enter := { emptyPacket with command := UPDATE_CMD_ENTER_UPDATE }
    let polls := [(encoded discover ++ encoded enter ++ encoded discover, [])]
    let final := (update_agent_init .NoReturn).run (fun _ => .Ok) 1 polls
    let done := completions (update_can_request_id 1) [] [] (pollInputs polls)
    final.said = (heard .NoReturn done).foldl (say (fun _ => .Ok) 1 .NoReturn)
        { acts := [], can_calls := 0 } ∧
      (final.halted = true ↔ ResetCallback.NoReturn = .NoReturn ∧
        ∃ completion ∈ done, entersUpdate completion.2 = true) ∧
      ofTransport .Uart done = (scan (inputBytes (pollInputs polls))).1 ∧
      ofTransport .Can done =
        canResults (update_can_request_id 1) [] (inputFrames (pollInputs polls)) :=
  polls_answered (fun _ => .Ok) (by decide) .NoReturn _

/-! ## A stream of packets -/

/-- The packets of an undisturbed line come out again, one after the other. -/
theorem scan_packets {packets : List UpdatePacket}
    (h : ∀ packet ∈ packets, packet.payload_len.toNat ≤ UPDATE_PROTOCOL_MAX_PAYLOAD) :
    scan (packets.flatMap encoded) = (packets.map .ok, []) := by
  induction packets with
  | nil => exact waiting_nil
  | cons packet packets ih =>
    have hfits := h packet (List.mem_cons_self ..)
    have hlength := length_encoded packet
    have hpayload : read_payload_len (encoded packet) = packet.payload_len :=
      read_message_len packet _
    have hheader : retransmission.Header (encoded packet) := by
      refine ⟨⟨by omega, rfl, rfl⟩, ?_⟩
      rw [hpayload]
      exact hfits
    have hpacket : packetLen (encoded packet ++ packets.flatMap encoded) =
        (encoded packet).length := by
      rw [retransmission.packetLen_append (by omega), packetLen, hpayload, hlength]
    rw [List.flatMap_cons, retransmission.scan_header
      ((retransmission.header_append (by omega) _).mpr hheader)
      (by rw [hpacket, List.length_append]; omega), hpacket, List.take_left, List.drop_left,
      ih fun other hmem => h other (List.mem_cons_of_mem _ hmem),
      retransmission.decodeResult_encoded hfits]
    rfl

/-- What completes on the UART alone. -/
theorem completions_bytes (can_id : UInt32) (frames : List CanFrame) (bytes rx : List UInt8) :
    (scan bytes).1.map (Transport.Uart, ·) ++ completions can_id bytes frames (rx.map .Byte) =
      (scan (bytes ++ rx)).1.map (Transport.Uart, ·) := by
  induction rx generalizing bytes with
  | nil => rw [List.append_nil]; exact List.append_nil _
  | cons byte rx ih =>
    have hcompletes : (scan bytes).1 ++ uartCompletes bytes byte = (scan (bytes ++ [byte])).1 := by
      rw [uartCompletes, scan_append bytes [byte], List.drop_left]
    have hrest := ih (bytes ++ [byte])
    rw [← hcompletes, List.map_append, List.append_assoc, List.append_assoc] at hrest
    exact hrest

/-- An agent that reads ENTER_UPDATE acknowledges it, drains the line and resets. -/
theorem enter_acts (results : Nat → CanResult) {node_id : UInt8}
    (small : node_id ≤ UPDATE_CAN_MAX_NODE_ID) {packet : UpdatePacket}
    (hfits : packet.payload_len.toNat ≤ UPDATE_PROTOCOL_MAX_PAYLOAD)
    (henter : packet.command = UPDATE_CMD_ENTER_UPDATE) :
    ((update_agent_init .NoReturn).run results node_id [(encoded packet, [])]).acts =
      [.Uart (encoded (answer (.ok packet))), .DrainUart] ++ .Reset :: [] := by
  have hdone : completions (update_can_request_id node_id) [] []
      (pollInputs [(encoded packet, [])]) = [(.Uart, .ok packet)] := by
    have hscan := @scan_packets [packet] fun other hmem => by
      rw [List.mem_singleton.mp hmem]
      exact hfits
    have hbytes := completions_bytes (update_can_request_id node_id) [] [] (encoded packet)
    rw [List.flatMap_cons, List.flatMap_nil, List.append_nil] at hscan
    rw [show scan ([] : List UInt8) = ([], []) from waiting_nil, List.nil_append, hscan] at hbytes
    unfold pollInputs
    rw [List.flatMap_cons, List.flatMap_nil, List.append_nil, List.map_nil, List.append_nil]
    exact hbytes
  have hall := @receiveAll_heard results node_id (update_agent_init .NoReturn) small
    (pollInputs [(encoded packet, [])]) [] [] rfl (hears_init _ node_id)
  have henters : entersUpdate (.ok packet) = true := decide_eq_true henter
  rw [hdone] at hall
  rw [run_eq]
  refine (congrArg Said.acts hall.said_eq).trans ?_
  simp [heard, say, resetting, henters, update_agent_init, UpdateAgent.said]

/-! ## The resets -/

section
variable {results : Nat → CanResult} {node_id : UInt8} {callback : ResetCallback}

theorem heard_mem {done : List Completion} {completion : Completion}
    (h : completion ∈ heard callback done) : completion ∈ done := by
  induction done with
  | nil => exact h
  | cons first done ih =>
    unfold heard at h
    split at h
    · rw [List.mem_singleton.mp h]
      exact List.mem_cons_self ..
    · rcases List.mem_cons.mp h with rfl | h
      · exact List.mem_cons_self ..
      · exact List.mem_cons_of_mem _ (ih h)

/-- With a reset that does not return, an ENTER_UPDATE is the last thing that is heard. -/
theorem heard_last {done earlier later : List Completion} {completion : Completion}
    (h : heard .NoReturn done = earlier ++ completion :: later)
    (henters : entersUpdate completion.2 = true) : later = [] := by
  induction done generalizing earlier with
  | nil => cases earlier <;> cases h
  | cons first done ih =>
    unfold heard at h
    cases earlier with
    | nil =>
      split at h
      · exact (List.cons.inj h).2.symm
      · rename_i hnot
        rw [← (List.cons.inj h).1] at henters
        exact absurd ⟨rfl, henters⟩ hnot
    | cons other earlier =>
      split at h
      · have hnone := (List.cons.inj h).2
        cases earlier <;> cases hnone
      · exact ih (List.cons.inj h).2

/-- A reset in the acts of one answer comes after the ACK and the drain, and is the last of them. -/
theorem resetting_reset {ack drain : Act} (hack : ack ≠ .Reset) (hdrain : drain ≠ .Reset)
    {result : Except UpdateStatus UpdatePacket} {before after : List Act}
    (h : ack :: resetting callback drain result = before ++ .Reset :: after) :
    entersUpdate result = true ∧ before = [ack, drain] ∧ after = [] := by
  unfold resetting at h
  cases before with
  | nil => exact absurd (List.cons.inj h).1 hack
  | cons first before =>
    obtain ⟨hfirst, h⟩ := List.cons.inj h
    by_cases henters : entersUpdate result = true
    · rw [if_pos henters] at h
      cases before with
      | nil => exact absurd (List.cons.inj h).1 hdrain
      | cons second before =>
        obtain ⟨hsecond, h⟩ := List.cons.inj h
        by_cases hnull : callback = .Null
        · rw [if_pos hnull] at h
          cases before <;> cases h
        · rw [if_neg hnull] at h
          cases before with
          | nil => exact ⟨henters, by rw [hfirst, hsecond], (List.cons.inj h).2.symm⟩
          | cons third before =>
            have hnone := (List.cons.inj h).2
            cases before <;> cases hnone
    · rw [if_neg henters] at h
      cases before <;> cases h

/-- The drain of a transport. -/
def drainOf : Transport → Act
  | .Uart => .DrainUart
  | .Can => .DrainCan

/-- The ACK of an ENTER_UPDATE went out on its transport: whole on the UART, and on
CAN as far as the mailboxes took it. -/
def AckSent (results : Nat → CanResult) (node_id : UInt8) (completion : Completion) (act : Act) :
    Prop :=
  match completion.1 with
  | .Uart => act = .Uart (encoded (answer completion.2))
  | .Can => ∃ calls, act = .Can (sendFrames (sendFrame results)
      (firmwareFrames (update_can_response_id node_id) (encoded (answer completion.2)))
      { calls, frames := [] }).2.frames

/-- What one answer adds to the acts. -/
theorem say_acts (said : Said) (completion : Completion) : ∃ ack, ack ≠ .Reset ∧
    AckSent results node_id completion ack ∧
    (say results node_id callback said completion).acts =
      said.acts ++ ack :: resetting callback (drainOf completion.1) completion.2 := by
  obtain ⟨transport, result⟩ := completion
  cases transport with
  | Uart => exact ⟨.Uart (encoded (answer result)), nofun, rfl, rfl⟩
  | Can => exact ⟨.Can _, nofun, ⟨said.can_calls, rfl⟩, rfl⟩

/-- Every reset belongs to an ENTER_UPDATE. The induction is from the end of the run. -/
theorem resets_of_say {done : List Completion} {before after : List Act}
    (h : (done.foldl (say results node_id callback) { acts := [], can_calls := 0 }).acts =
      before ++ .Reset :: after) :
    ∃ earlier completion later acts ack, done = earlier ++ completion :: later ∧
      entersUpdate completion.2 = true ∧ AckSent results node_id completion ack ∧
      before = acts ++ [ack, drainOf completion.1] ∧ (later = [] → after = []) := by
  induction done using List.reverseRecOn generalizing after with
  | nil => cases before <;> cases h
  | append_singleton done completion ih =>
    obtain ⟨ack, hack, hsent, hacts⟩ := @say_acts results node_id callback
      (done.foldl (say results node_id callback) { acts := [], can_calls := 0 }) completion
    rw [List.foldl_append, List.foldl_cons, List.foldl_nil, hacts] at h
    rcases List.append_eq_append_iff.mp h with ⟨more, hbefore, hpiece⟩ | ⟨more, hprev, hpiece⟩
    · obtain ⟨henters, rfl, rfl⟩ := resetting_reset hack
        (by cases completion.1 <;> nofun) hpiece
      exact ⟨done, completion, [], _, ack, rfl, henters, hsent, hbefore, fun _ => rfl⟩
    · cases more with
      | nil => exact absurd (List.cons.inj hpiece).1.symm hack
      | cons first more =>
        rw [List.cons_append] at hpiece
        obtain ⟨rfl, rfl⟩ := List.cons.inj hpiece
        obtain ⟨earlier, other, later, acts, otherAck, hdone, henters, hother, hbefore, -⟩ :=
          ih hprev
        refine ⟨earlier, other, later ++ [completion], acts, otherAck, ?_, henters, hother,
          hbefore, fun hnil => ?_⟩
        · rw [hdone, List.append_assoc, List.cons_append]
        · simp at hnil

/-- The retries of `send_can_ack` are those of `send_frame_wait`, with one call more. -/
theorem sendFrame_eq :
    sendFrame results = fun frame => send_frame_wait results frame (CAN_ACK_RETRIES + 1) := by
  funext frame bus
  obtain ⟨hok, hbus⟩ := sendRetry_eq results frame CAN_ACK_RETRIES bus
  refine Prod.ext ?_ hbus
  rw [Bool.eq_iff_iff, ← hok]
  exact decide_eq_true_iff

/-- What gets out of an ACK is a first part of its frames, and all of them with room in
the mailboxes. -/
theorem sendFrame_some (frames : List CanFrame) (calls : Nat) :
    let out := sendFrames (sendFrame results) frames { calls, frames := [] }
    out.2.frames <+: frames ∧
      (Obliging results (CAN_ACK_RETRIES + 1) → out.2.frames = frames) := by
  intro out
  have honce := wait_sends_once results (CAN_ACK_RETRIES + 1)
  rw [← sendFrame_eq] at honce
  obtain ⟨n, hn, hcase⟩ := sendFrames_prefix honce frames { calls, frames := [] }
  rw [List.nil_append] at hn
  refine ⟨?_, fun h => ?_⟩
  · rw [hn]
    exact List.take_prefix n frames
  · have hall : out.1 = true := by
      refine sendFrames_all (fun frame bus => ?_) frames _
      rw [sendFrame_eq]
      exact wait_obliging results h frame bus
    obtain ⟨-, rfl⟩ | ⟨hcut, -⟩ := hcase
    · rw [hn, List.take_length]
    · rw [hall] at hcut
      cases hcut

end

/-- Every reset of a run comes right after the ACK of an ENTER_UPDATE and the drain of
its transport. The ACK is whole on the UART. On CAN it is a first part of its frames,
and whole if every frame gets out in its retries. A reset that does not return is the
last act. -/
theorem resets_follow_ack (results : Nat → CanResult) {node_id : UInt8}
    (small : node_id ≤ UPDATE_CAN_MAX_NODE_ID) (callback : ResetCallback)
    (polls : List (List UInt8 × List CanFrame)) {before after : List Act}
    (h : ((update_agent_init callback).run results node_id polls).acts =
      before ++ .Reset :: after) :
    let done := completions (update_can_request_id node_id) [] [] (pollInputs polls)
    ∃ completion ∈ done, entersUpdate completion.2 = true ∧
      (∃ acts ack, before = acts ++ [ack, drainOf completion.1] ∧
        (completion.1 = .Uart → ack = .Uart (encoded (answer completion.2))) ∧
        (completion.1 = .Can → ∃ sent, ack = .Can sent ∧
          sent <+: firmwareFrames (update_can_response_id node_id)
            (encoded (answer completion.2)) ∧
          (Obliging results (CAN_ACK_RETRIES + 1) →
            sent = firmwareFrames (update_can_response_id node_id)
              (encoded (answer completion.2))))) ∧
      (callback = .NoReturn → after = []) := by
  have hall :=
    @receiveAll_heard results node_id (update_agent_init callback) small (pollInputs polls)
    [] [] rfl (hears_init callback node_id)
  intro done
  rw [run_eq] at h
  obtain ⟨earlier, completion, later, acts, ack, hheard, henters, hsent, hbefore, hlast⟩ :=
    resets_of_say ((congrArg Said.acts hall.said_eq).symm.trans h)
  have hmem : completion ∈ done := by
    refine @heard_mem callback _ _ ?_
    show completion ∈ heard (update_agent_init callback).reset_callback done
    rw [hheard]
    simp
  refine ⟨completion, hmem, henters, ⟨acts, ack, hbefore, ?_, ?_⟩, ?_⟩
  · intro huart
    unfold AckSent at hsent
    rwa [huart] at hsent
  · intro hcan
    unfold AckSent at hsent
    rw [hcan] at hsent
    obtain ⟨calls, hack⟩ := hsent
    exact ⟨_, hack, sendFrame_some _ calls⟩
  · rintro rfl
    exact hlast (heard_last hheard henters)

/-- ENTER_UPDATE on the UART. -/
theorem resets_follow_ack_enter :
    let polls := [(encoded { emptyPacket with command := UPDATE_CMD_ENTER_UPDATE }, [])]
    let done := completions (update_can_request_id 1) [] [] (pollInputs polls)
    let before := [Act.Uart (encoded (answer (.ok
      { emptyPacket with command := UPDATE_CMD_ENTER_UPDATE }))), .DrainUart]
    ∃ completion ∈ done, entersUpdate completion.2 = true ∧
      (∃ acts ack, before = acts ++ [ack, drainOf completion.1] ∧
        (completion.1 = .Uart → ack = .Uart (encoded (answer completion.2))) ∧
        (completion.1 = .Can → ∃ sent, ack = .Can sent ∧
          sent <+: firmwareFrames (update_can_response_id 1) (encoded (answer completion.2)) ∧
          (Obliging (fun _ => .Ok) (CAN_ACK_RETRIES + 1) →
            sent = firmwareFrames (update_can_response_id 1)
              (encoded (answer completion.2))))) ∧
      (ResetCallback.NoReturn = .NoReturn → ([] : List Act) = []) :=
  resets_follow_ack (fun _ => .Ok) (by decide) .NoReturn _
    (enter_acts (fun _ => .Ok) (by decide) (by decide) rfl)

end stm32_vibe.update_agent
