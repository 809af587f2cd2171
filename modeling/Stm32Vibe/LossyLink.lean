-- The update tool and the device over a line that loses, doubles and damages
-- packets. When the tool returns, the device has stored the image as pending.
import Stm32Vibe.Lib.StopAndWait
import Stm32Vibe.SlotStatuses
import Stm32Vibe.UpdateLoop

namespace stm32_vibe.lossy_link

open little_endian boot_state boot_policy boot_state_store save_history boot_flash update_protocol
  update_session update_loop uart_update at_least_once finalize_image repeated_update
  transfer_laws device trial_boots running_image slot_statuses stop_and_wait

/-! ## The tool and the device -/

section
variable (board : Board) (environment : Environment)

/-- `send_and_ack` against `boot_update_loop_process_encoded`. A packet is
damaged where the decoder notices it. -/
def protocol : Protocol UpdatePacket (List UInt8) (List UInt8) World ToolError where
  wire packet := (encode_packet packet).toOption.getD []
  answer encoded world :=
    let out := boot_update_loop_process_encoded board environment encoded
      UPDATE_PROTOCOL_MAX_PACKET_SIZE world
    (out.1.toOption, out.2)
  check packet ack := expect_ack packet.command packet.session_id packet.sequence ack
  DamagedRequest encoded := ¬ Accepts encoded
  DamagedReply encoded := ¬ Accepts encoded

/-- The call of `run_update` with `activate=True`. Its BEGIN has room for a size of 32 bits. -/
def start_update (binary : List UInt8) (image_crc32 session_id : UInt32) (world : World) :
    Link UpdatePacket (List UInt8) (List UInt8) World ToolError :=
  if binary.length ≥ 2 ^ 32 then
    { sender := .Raised .StructError, requests := [], replies := [], receiver := world }
  else start (protocol board environment) (run_update binary image_crc32 session_id true) world

end

/-- The record in force names a pending slot that starts with the binary, and
the session asks for a reset. -/
structure Agrees (binary : List UInt8) (world : World) : Prop where
  slot : slot_is_valid (boot_state_store_load world.copies).pending_slot
  status : boot_state_status_for_slot (boot_state_store_load world.copies)
    (boot_state_store_load world.copies).pending_slot = BOOT_SLOT_STATUS_PENDING
  image : Holds (world.slots.image (boot_state_store_load world.copies).pending_slot) binary
  reset : world.loop.session.reset_requested = true

/-! ## The replies of the device -/

section
variable {board : Board} {environment : Environment}

theorem code_ok_iff (status : UpdateStatus) : status.code = STATUS_OK ↔ status = .Ok := by
  cases status <;> decide

/-- The tool takes an ACK for the answer to a packet when it says so. -/
theorem check_ack_iff (packet : UpdatePacket) (command : UInt8) (status : UpdateStatus)
    (session_id sequence : UInt32) :
    (protocol board environment).check packet
        (encoded (ackPacket command status session_id sequence)) = .ok () ↔
      command = packet.command ∧ status = .Ok ∧ session_id = packet.session_id ∧
        sequence = packet.sequence := by
  have hfits : (ackPacket command status session_id sequence).payload_len.toNat ≤ 128 := by
    show 2 ≤ 128
    omega
  have hdecoded : decoded (encoded (ackPacket command status session_id sequence)) =
      ackPacket command status session_id sequence := decoded_message _ _
  have hcheck := expect_ack_ok_iff packet.command packet.session_id packet.sequence
    (encoded (ackPacket command status session_id sequence))
  rw [hdecoded] at hcheck
  refine hcheck.trans ?_
  constructor
  · rintro ⟨-, -, hsession, hsequence, hpayload⟩
    obtain ⟨hcommand, hstatus⟩ : command = packet.command ∧ status.code = STATUS_OK := by
      simpa [ackPacket] using hpayload
    exact ⟨hcommand, (code_ok_iff status).mp hstatus, hsession, hsequence⟩
  · rintro ⟨rfl, rfl, rfl, rfl⟩
    exact ⟨encoded_accepts hfits, rfl, rfl, rfl, rfl⟩

theorem wire_eq {packet : UpdatePacket} (hfits : packet.payload_len.toNat ≤ 128) :
    (protocol board environment).wire packet = encoded packet := by
  unfold protocol
  dsimp only
  rw [encode_packet_eq hfits]
  rfl

/-- What the session makes of a packet in a world. -/
def processed (board : Board) (environment : Environment) (packet : UpdatePacket)
    (world : World) : UpdateStatus × UpdateState :=
  boot_update_session_process board (environment world.processed).1
    (environment world.processed).2 packet world.handled.state

theorem answer_packet {packet : UpdatePacket} (hfits : packet.payload_len.toNat ≤ 128)
    (world : World) :
    let out := (protocol board environment).answer
      ((protocol board environment).wire packet) world
    let done := processed board environment packet world
    out.1 = some (encoded (ackPacket packet.command done.1 packet.session_id packet.sequence)) ∧
      out.2.handled.state = done.2 := by
  have hlen : read_u16_le (encoded packet) 6 = packet.payload_len := read_message_len packet _
  have hdecode := decode_accepted (encoded_accepts hfits) emptyPacket world.loop.payload
    (by rw [hlen]; exact hfits : _ ≤ UPDATE_PROTOCOL_MAX_PAYLOAD)
  rw [show decoded (encoded packet) = packet from decoded_message packet _] at hdecode
  rw [wire_eq hfits]
  unfold protocol boot_update_loop_process_encoded
  dsimp only
  rw [hdecode]
  dsimp only
  rw [if_neg (by decide), encode_ack_ok]
  exact ⟨rfl, rfl⟩

/-- What the device cannot decode changes no state, and its ACK names no command. -/
theorem answer_damaged {bytes : List UInt8} (h : ¬ Accepts bytes) (world : World) :
    let out := (protocol board environment).answer bytes world
    out.2.handled.state = world.handled.state ∧
      ∃ status, out.1 = some (encoded (ackPacket 0 status 0 0)) := by
  obtain ⟨status, hstatus, hdecode⟩ := @decode_rejected bytes UPDATE_PROTOCOL_MAX_PAYLOAD
    (fun hboth => h hboth.1) emptyPacket world.loop.payload
  unfold protocol boot_update_loop_process_encoded
  dsimp only
  rw [hdecode]
  dsimp only
  rw [if_pos hstatus, encode_ack_ok]
  exact ⟨rfl, status, rfl⟩

end

/-! ## The script -/

section
variable {binary : List UInt8} {image_crc32 session_id : UInt32}

/-- The packet that `run_update` sends after `i` others. -/
inductive Position (binary : List UInt8) (image_crc32 session_id : UInt32) :
    Nat → UpdatePacket → Prop
  | begin_ : Position binary image_crc32 session_id 0 (beginPacket session_id binary image_crc32)
  | block (k : Nat) (hk : k < blockCount binary) :
      Position binary image_crc32 session_id (k + 1)
        (blockPacket session_id binary (MAX_PAYLOAD * k))
  | end_ : Position binary image_crc32 session_id (blockCount binary + 1)
      (bare UPDATE_CMD_END session_id)
  | validate : Position binary image_crc32 session_id (blockCount binary + 2)
      (bare UPDATE_CMD_VALIDATE session_id)
  | activate : Position binary image_crc32 session_id (blockCount binary + 3)
      (bare UPDATE_CMD_ACTIVATE session_id)

theorem run_update_eq : run_update binary image_crc32 session_id true =
    beginPacket session_id binary image_crc32 :: (blockPackets session_id binary ++
      [bare UPDATE_CMD_END session_id, bare UPDATE_CMD_VALIDATE session_id,
        bare UPDATE_CMD_ACTIVATE session_id]) := by
  simp [run_update]

theorem length_blockPackets : (blockPackets session_id binary).length = blockCount binary := by
  simp [blockPackets]

theorem length_script :
    (run_update binary image_crc32 session_id true).length = blockCount binary + 4 := by
  rw [run_update_eq]
  simp [length_blockPackets]

theorem script_position {i : Nat} {packet : UpdatePacket}
    (h : (run_update binary image_crc32 session_id true)[i]? = some packet) :
    Position binary image_crc32 session_id i packet := by
  rw [run_update_eq] at h
  cases i with
  | zero =>
    cases h
    exact .begin_
  | succ i =>
    rw [List.getElem?_cons_succ] at h
    by_cases hi : i < blockCount binary
    · rw [List.getElem?_append_left (by rw [length_blockPackets]; exact hi), blockPackets,
        List.getElem?_map, List.getElem?_range hi] at h
      cases h
      exact .block i hi
    · obtain ⟨j, rfl⟩ : ∃ j, i = blockCount binary + j := ⟨i - blockCount binary, by omega⟩
      rw [List.getElem?_append_right (by rw [length_blockPackets]; omega), length_blockPackets,
        Nat.add_sub_cancel_left] at h
      rcases j with _ | _ | _ | j
      · cases h
        exact .end_
      · cases h
        exact .validate
      · cases h
        exact .activate
      · cases h

theorem position_fits {i : Nat} {packet : UpdatePacket}
    (h : Position binary image_crc32 session_id i packet) : packet.payload_len.toNat ≤ 128 := by
  rw [← packet.length_payload]
  cases h with
  | begin_ =>
    show (beginPayload binary image_crc32).length ≤ 128
    rw [length_beginPayload]
    omega
  | block k hk => exact List.length_take_le _ _
  | end_ => exact Nat.zero_le _
  | validate => exact Nat.zero_le _
  | activate => exact Nat.zero_le _

theorem position_command {i : Nat} {packet : UpdatePacket}
    (h : Position binary image_crc32 session_id i packet) : packet.command ≠ 0 := by
  cases h with
  | begin_ => exact (by decide : UPDATE_CMD_BEGIN ≠ 0)
  | block k hk => exact (by decide : UPDATE_CMD_BLOCK ≠ 0)
  | end_ => exact (by decide : UPDATE_CMD_END ≠ 0)
  | validate => exact (by decide : UPDATE_CMD_VALIDATE ≠ 0)
  | activate => exact (by decide : UPDATE_CMD_ACTIVATE ≠ 0)

/-- The place of a packet in the script. -/
def place (binary : List UInt8) (command : UInt8) (sequence : UInt32) : Nat :=
  if command = UPDATE_CMD_BEGIN then 0
  else if command = UPDATE_CMD_BLOCK then sequence.toNat / MAX_PAYLOAD + 1
  else if command = UPDATE_CMD_END then blockCount binary + 1
  else if command = UPDATE_CMD_VALIDATE then blockCount binary + 2
  else blockCount binary + 3

/-- Though most sequences are 0, the command and the sequence say which packet it is. -/
theorem position_place (hsize : binary.length < 2 ^ 32) {i : Nat} {packet : UpdatePacket}
    (h : Position binary image_crc32 session_id i packet) :
    i = place binary packet.command packet.sequence := by
  cases h with
  | begin_ => rfl
  | block k hk =>
    have hoffset := block_offset hk
    have hseq : (MAX_PAYLOAD * k).toUInt32.toNat = MAX_PAYLOAD * k := toNat_toUInt32 (by omega)
    have hplace : place binary UPDATE_CMD_BLOCK (MAX_PAYLOAD * k).toUInt32 = k + 1 := by
      have hother : UPDATE_CMD_BLOCK ≠ UPDATE_CMD_BEGIN := by decide
      unfold place
      rw [if_neg hother, if_pos rfl, hseq, Nat.mul_div_cancel_left k (by decide)]
    exact hplace.symm
  | end_ => rfl
  | validate => rfl
  | activate => rfl

end

/-! ## The record of the activation -/

/-- The slot is pending, with the status pending. -/
structure Marks (record : BootStateRecord) (slot : UInt32) : Prop where
  pending_slot : record.pending_slot = slot
  status : boot_state_status_for_slot record slot = BOOT_SLOT_STATUS_PENDING

/-- The record in force marks the slot, and stands in its own copy. -/
structure Recorded (copies : Copies) (slot : UInt32) : Prop where
  own : InOwnCopy copies
  marks : Marks (boot_state_store_load copies) slot

/-- A record of the next generation would be the newest. -/
def HasRoom (copies : Copies) : Prop := generationOf (boot_state_store_load copies) + 1 < 2 ^ 32

theorem marks_congr {record written : BootStateRecord} {slot : UInt32}
    (h : written.policy = record.policy) (hm : Marks record slot) : Marks written slot := by
  simp only [BootStateRecord.policy, Policy.mk.injEq] at h
  obtain ⟨-, -, hp, -, ha, hb⟩ := h
  refine ⟨hp.trans hm.pending_slot, ?_⟩
  rw [← hm.status]
  unfold boot_state_status_for_slot
  rw [ha, hb]

section
variable {copies : Copies} {slot : UInt32} (valid : slot_is_valid slot)
  (version image_crc32 : UInt32)
include valid

theorem marks_pending (record : BootStateRecord) :
    Marks (boot_policy_mark_slot_pending record slot version image_crc32) slot :=
  ⟨mark_slot_pending_pending_slot record version image_crc32 valid,
    mark_slot_pending_status record version image_crc32 valid⟩

/-- The copies after an activation of the slot, however its save ends. -/
theorem save_recorded (h : Recorded copies slot) (outcome : SaveOutcome) :
    Recorded (boot_state_store_save_next copies
      (boot_policy_mark_slot_pending (boot_state_store_load copies) slot version image_crc32)
      outcome).1 slot := by
  obtain ⟨hown, hload⟩ := save_beside (.activate slot version image_crc32 valid) h.own outcome
  refine ⟨hown, ?_⟩
  rcases hload with hload | hpolicy
  · rw [hload]
    exact h.marks
  · exact marks_congr hpolicy (marks_pending valid version image_crc32 _)

theorem save_room (h : HasRoom copies) (outcome : SaveOutcome) :
    let after := (boot_state_store_save_next copies
      (boot_policy_mark_slot_pending (boot_state_store_load copies) slot version image_crc32)
      outcome).1
    HasRoom after ∨ Recorded after slot := by
  intro after
  rcases save_leaves_room (.activate slot version image_crc32 valid) h outcome with
    hroom | ⟨hpolicy, hown⟩
  · exact Or.inl hroom
  · exact Or.inr ⟨hown, marks_congr hpolicy (marks_pending valid version image_crc32 _)⟩

theorem save_room_completed (h : HasRoom copies) :
    Recorded (boot_state_store_save_next copies
      (boot_policy_mark_slot_pending (boot_state_store_load copies) slot version image_crc32)
      .Completes).1 slot := by
  obtain ⟨hload, hown⟩ := save_completed (.activate slot version image_crc32 valid) h
  refine ⟨hown, ?_⟩
  rw [hload]
  exact marks_pending valid version image_crc32 _

end

/-! ## The stages of the device -/

/-- The session has the first `k` blocks, and they stand in its slot. -/
structure Filled (binary : List UInt8) (k : Nat) (state : UpdateState) : Prop where
  target : slot_is_valid state.session.target_slot
  received : state.session.received_image_size.toNat = min (MAX_PAYLOAD * k) binary.length
  holds : Holds (state.slots.image state.session.target_slot) (binary.take (MAX_PAYLOAD * k))

/-- What the first `i` packets of the script lead to. -/
structure Progress (binary : List UInt8) (i : Nat) (state : UpdateState) : Prop where
  filled : 0 < i → Filled binary (i - 1) state
  room : i < blockCount binary + 3 → HasRoom state.copies
  validated : i = blockCount binary + 3 →
    HasRoom state.copies ∨ Recorded state.copies state.session.target_slot
  activated : blockCount binary + 3 < i →
    Recorded state.copies state.session.target_slot ∧ state.session.reset_requested = true

section
variable {board : Board} {flash : BootFlash} {save : SaveOutcome} {packet : UpdatePacket}
  {state next : UpdateState} {status : UpdateStatus} {binary : List UInt8}

/-- Before the validation only the blocks and the room count. -/
theorem Progress.early {i : Nat} (hi : i < blockCount binary + 3)
    (filled : 0 < i → Filled binary (i - 1) state) (room : HasRoom state.copies) :
    Progress binary i state :=
  ⟨filled, fun _ => room, fun h => absurd h (by omega), fun h => absurd h (by omega)⟩

theorem full_le {k : Nat} (hk : blockCount binary ≤ k) : binary.length ≤ MAX_PAYLOAD * k := by
  unfold blockCount MAX_PAYLOAD at *
  omega

/-- Past the last block nothing more is received. -/
theorem Filled.more {k j : Nat} (h : Filled binary k state) (hk : blockCount binary ≤ k)
    (hj : blockCount binary ≤ j) : Filled binary j state := by
  have hreceived := h.received
  have hholds := h.holds
  rw [Nat.min_eq_right (full_le hk)] at hreceived
  rw [List.take_of_length_le (full_le hk)] at hholds
  refine ⟨h.target, ?_, ?_⟩
  · rw [Nat.min_eq_right (full_le hj), hreceived]
  · rwa [List.take_of_length_le (full_le hj)]

/-- Other packets than blocks change something whenever they are answered with OK. -/
theorem idle_refused
    (quiet : status = .Ok → packet.command = UPDATE_CMD_DISCOVER ∨
      packet.command = UPDATE_CMD_STATUS ∨ packet.command = UPDATE_CMD_ENTER_UPDATE ∨
      (packet.command = UPDATE_CMD_BLOCK ∧
        packet.sequence < state.session.received_image_size))
    {command : UInt8} (hcommand : packet.command = command)
    (hd : command ≠ UPDATE_CMD_DISCOVER) (hs : command ≠ UPDATE_CMD_STATUS)
    (he : command ≠ UPDATE_CMD_ENTER_UPDATE)
    (hb : command = UPDATE_CMD_BLOCK →
      ¬ packet.sequence < state.session.received_image_size) : status ≠ .Ok := by
  intro hok
  rcases quiet hok with h | h | h | ⟨h, hold⟩
  · exact hd (hcommand.symm.trans h)
  · exact hs (hcommand.symm.trans h)
  · exact he (hcommand.symm.trans h)
  · exact hb (hcommand.symm.trans h) hold

theorem begin_progress (command : packet.command = UPDATE_CMD_BEGIN)
    (step : PacketStep board flash save packet state status next) :
    (Progress binary 0 state →
      Progress binary 1 next ∨ status ≠ .Ok ∧ Progress binary 0 next) ∧
      (Progress binary 1 state → Progress binary 1 next) := by
  have hempty : ∀ other : UpdateState, slot_is_valid other.session.target_slot →
      other.session.received_image_size = 0 → Filled binary 0 other := by
    intro other target received
    refine ⟨target, ?_, holds_nil _⟩
    rw [received, Nat.mul_zero, Nat.zero_min]
    rfl
  cases step with
  | idle status quiet =>
    have hrefused := idle_refused quiet command (by decide) (by decide) (by decide)
      fun h => absurd h (by decide)
    exact ⟨fun h => Or.inr ⟨hrefused, h⟩, fun h => h⟩
  | begin_failed command accepted failed =>
    refine ⟨fun h => Or.inr ⟨flash_error_ne_ok, ?_⟩, fun h => ?_⟩
    · exact .early (by omega) (fun h0 => absurd h0 (by omega)) (h.room (by omega))
    · have hfilled := h.filled (by omega)
      have hzero : state.session.received_image_size = 0 := by
        apply UInt32.toNat_inj.mp
        rw [hfilled.received]
        simp
      exact .early (by omega) (fun _ => hempty _ hfilled.target hzero) (h.room (by omega))
  | begun command accepted erased =>
    refine ⟨fun h => Or.inl ?_, fun h => ?_⟩
    · exact .early (by omega) (fun _ => hempty _ (beginSlot_valid state) rfl) (h.room (by omega))
    · exact .early (by omega) (fun _ => hempty _ (beginSlot_valid state) rfl) (h.room (by omega))
  | _ => exact absurd (command.symm.trans ‹packet.command = _›) (by decide)

/-- A new block stands behind the blocks before it. -/
theorem filled_block (hflash : LawfulFlash flash) (hsize : binary.length < 2 ^ 32) {k : Nat}
    (hk : k < blockCount binary) (hsequence : packet.sequence.toNat = MAX_PAYLOAD * k)
    (hpayload : packet.payload = block binary (MAX_PAYLOAD * k)) (h : Filled binary k state)
    (written : (flash.write_slot state.slots state.session.target_slot packet.sequence
      packet.payload).1 = .Ok) :
    Filled binary (k + 1)
      { state with
        session := { state.session with
          received_image_size :=
            state.session.received_image_size + packet.payload_len.toUInt32 }
        slots := (flash.write_slot state.slots state.session.target_slot packet.sequence
          packet.payload).2
        flash_calls := state.flash_calls ++
          [.Write state.session.target_slot packet.sequence packet.payload] } := by
  have hoffset := block_offset hk
  have hlen := length_block binary (MAX_PAYLOAD * k)
  have hbefore : (binary.take (MAX_PAYLOAD * k)).length = MAX_PAYLOAD * k := by
    rw [List.length_take]
    omega
  refine ⟨h.target, ?_, ?_⟩
  · dsimp only
    rw [UInt32.toNat_add, toNat_payload_len, h.received, hpayload, hlen]
    unfold MAX_PAYLOAD at *
    omega
  · rw [← take_append_block]
    apply Holds.append
    · refine h.holds.congr fun i hi => ?_
      exact hflash.write_before _ _ _ _ i (by omega)
    · intro j hj
      rw [← hpayload] at hj
      have hdata := hflash.write_ok _ _ _ _ written j hj
      rw [hsequence] at hdata
      rw [hbefore]
      simpa only [hpayload] using hdata

theorem block_progress (hflash : LawfulFlash flash) (hsize : binary.length < 2 ^ 32) {k : Nat}
    (hk : k < blockCount binary) (command : packet.command = UPDATE_CMD_BLOCK)
    (hsequence : packet.sequence.toNat = MAX_PAYLOAD * k)
    (hpayload : packet.payload = block binary (MAX_PAYLOAD * k))
    (step : PacketStep board flash save packet state status next) :
    (Progress binary (k + 1) state →
      Progress binary (k + 2) next ∨ status ≠ .Ok ∧ Progress binary (k + 1) next) ∧
      (Progress binary (k + 2) state → Progress binary (k + 2) next) := by
  have hoffset := block_offset hk
  have hnow : Progress binary (k + 1) state →
      state.session.received_image_size.toNat = MAX_PAYLOAD * k := by
    intro h
    rw [(h.filled (by omega)).received, Nat.add_sub_cancel, Nat.min_eq_left (by omega)]
  -- a block that was received is not new
  have hpast : Progress binary (k + 2) state → ¬ BlockNew state.session packet := by
    intro h new
    have hreceived := (h.filled (by omega)).received
    rw [← new.sequence, hsequence, show k + 2 - 1 = k + 1 by omega] at hreceived
    unfold MAX_PAYLOAD at *
    omega
  cases step with
  | idle status quiet =>
    refine ⟨fun h => Or.inr ⟨?_, h⟩, fun h => h⟩
    refine idle_refused quiet command (by decide) (by decide) (by decide) fun _ hold => ?_
    rw [UInt32.lt_iff_toNat_lt, hsequence, hnow h] at hold
    exact Nat.lt_irrefl _ hold
  | block_failed command active new failed =>
    refine ⟨fun h => Or.inr ⟨flash_error_ne_ok, ?_⟩, fun h => absurd new (hpast h)⟩
    have hfilled := h.filled (by omega)
    refine .early (by omega) (fun _ => ⟨hfilled.target, hfilled.received, ?_⟩) (h.room (by omega))
    refine hfilled.holds.congr fun i hi => hflash.write_before _ _ _ _ i ?_
    rw [List.length_take, Nat.add_sub_cancel] at hi
    omega
  | block command active new written =>
    refine ⟨fun h => Or.inl ?_, fun h => absurd new (hpast h)⟩
    have hfilled := h.filled (by omega)
    exact .early (by omega)
      (fun _ => filled_block hflash hsize hk hsequence hpayload hfilled written) (h.room (by omega))
  | _ => exact absurd (command.symm.trans ‹packet.command = _›) (by decide)

theorem end_progress (command : packet.command = UPDATE_CMD_END)
    (step : PacketStep board flash save packet state status next) :
    (Progress binary (blockCount binary + 1) state →
      Progress binary (blockCount binary + 2) next ∨
        status ≠ .Ok ∧ Progress binary (blockCount binary + 1) next) ∧
      (Progress binary (blockCount binary + 2) state →
        Progress binary (blockCount binary + 2) next) := by
  cases step with
  | idle status quiet =>
    have hrefused := idle_refused quiet command (by decide) (by decide) (by decide)
      fun h => absurd h (by decide)
    exact ⟨fun h => Or.inr ⟨hrefused, h⟩, fun h => h⟩
  | ended command active received =>
    refine ⟨fun h => Or.inl ?_, fun h => ?_⟩
    · have hfilled := (h.filled (by omega)).more (by omega) (by omega : _ ≤ blockCount binary + 1)
      exact .early (by omega) (fun _ => { hfilled with }) (h.room (by omega))
    · exact .early (by omega) (fun _ => { h.filled (by omega) with }) (h.room (by omega))
  | _ => exact absurd (command.symm.trans ‹packet.command = _›) (by decide)

theorem validate_progress (command : packet.command = UPDATE_CMD_VALIDATE)
    (step : PacketStep board flash save packet state status next) :
    (Progress binary (blockCount binary + 2) state →
      Progress binary (blockCount binary + 3) next ∨
        status ≠ .Ok ∧ Progress binary (blockCount binary + 2) next) ∧
      (Progress binary (blockCount binary + 3) state →
        Progress binary (blockCount binary + 3) next) := by
  cases step with
  | idle status quiet =>
    have hrefused := idle_refused quiet command (by decide) (by decide) (by decide)
      fun h => absurd h (by decide)
    exact ⟨fun h => Or.inr ⟨hrefused, h⟩, fun h => h⟩
  | validated command active accepted =>
    refine ⟨fun h => Or.inl ?_, fun h => ?_⟩
    · have hfilled := (h.filled (by omega)).more (by omega) (by omega : _ ≤ blockCount binary + 2)
      exact
        { filled := fun _ => { hfilled with }
          room := fun hi => absurd hi (by omega)
          validated := fun _ => Or.inl (h.room (by omega))
          activated := fun hi => absurd hi (by omega) }
    · exact
        { filled := fun _ => { h.filled (by omega) with }
          room := fun hi => absurd hi (by omega)
          validated := fun _ => h.validated rfl
          activated := fun hi => absurd hi (by omega) }
  | _ => exact absurd (command.symm.trans ‹packet.command = _›) (by decide)

theorem activate_progress (command : packet.command = UPDATE_CMD_ACTIVATE)
    (step : PacketStep board flash save packet state status next) :
    (Progress binary (blockCount binary + 3) state →
      Progress binary (blockCount binary + 4) next ∨
        status ≠ .Ok ∧ Progress binary (blockCount binary + 3) next) ∧
      (Progress binary (blockCount binary + 4) state →
        Progress binary (blockCount binary + 4) next) := by
  cases step with
  | idle status quiet =>
    have hrefused := idle_refused quiet command (by decide) (by decide) (by decide)
      fun h => absurd h (by decide)
    exact ⟨fun h => Or.inr ⟨hrefused, h⟩, fun h => h⟩
  | activate_failed command active valid incomplete =>
    refine ⟨fun h => Or.inr ⟨flash_error_ne_ok, ?_⟩, fun h => ?_⟩
    · have hfilled := h.filled (by omega)
      exact
        { filled := fun _ => { hfilled with }
          room := fun hi => absurd hi (by omega)
          validated := fun _ => by
            rcases h.validated rfl with hroom | hrecorded
            · exact save_room hfilled.target _ _ hroom save
            · exact Or.inr (save_recorded hfilled.target _ _ hrecorded save)
          activated := fun hi => absurd hi (by omega) }
    · have hfilled := h.filled (by omega)
      obtain ⟨hrecorded, hreset⟩ := h.activated (by omega)
      exact
        { filled := fun _ => { hfilled with }
          room := fun hi => absurd hi (by omega)
          validated := fun hi => absurd hi (by omega)
          activated := fun _ => ⟨save_recorded hfilled.target _ _ hrecorded save, hreset⟩ }
  | activated command active valid completes =>
    subst completes
    refine ⟨fun h => Or.inl ?_, fun h => ?_⟩
    · have hfilled := h.filled (by omega)
      have hmore := hfilled.more (by omega) (by omega : _ ≤ blockCount binary + 3)
      refine
        { filled := fun _ => { hmore with }
          room := fun hi => absurd hi (by omega)
          validated := fun hi => absurd hi (by omega)
          activated := fun _ => ⟨?_, rfl⟩ }
      rcases h.validated rfl with hroom | hrecorded
      · exact save_room_completed hfilled.target _ _ hroom
      · exact save_recorded hfilled.target _ _ hrecorded .Completes
    · have hfilled := h.filled (by omega)
      obtain ⟨hrecorded, -⟩ := h.activated (by omega)
      exact
        { filled := fun _ => { hfilled with }
          room := fun hi => absurd hi (by omega)
          validated := fun hi => absurd hi (by omega)
          activated := fun _ =>
            ⟨save_recorded hfilled.target _ _ hrecorded .Completes, rfl⟩ }
  | _ => exact absurd (command.symm.trans ‹packet.command = _›) (by decide)

/-- Each packet of the script leads on by one stage or is refused, and keeps the
stage when it comes again. -/
theorem position_progress (hflash : LawfulFlash flash) (hsize : binary.length < 2 ^ 32)
    {image_crc32 session_id : UInt32} {i : Nat}
    (position : Position binary image_crc32 session_id i packet)
    (step : PacketStep board flash save packet state status next) :
    (Progress binary i state →
      Progress binary (i + 1) next ∨ status ≠ .Ok ∧ Progress binary i next) ∧
      (Progress binary (i + 1) state → Progress binary (i + 1) next) := by
  cases position with
  | begin_ => exact begin_progress rfl step
  | block k hk =>
    have hoffset := block_offset hk
    exact block_progress hflash hsize hk rfl (toNat_toUInt32 (by omega)) rfl step
  | end_ => exact end_progress rfl step
  | validate => exact validate_progress rfl step
  | activate => exact activate_progress rfl step

end

/-! ## The update over the line -/

section
variable {board : Board} {environment : Environment} {binary : List UInt8}
  {image_crc32 session_id : UInt32}

/-- The laws of the script of `run_update`. -/
theorem update_laws (hflash : ∀ k, LawfulFlash (environment k).1)
    (hsize : binary.length < 2 ^ 32) :
    Laws (protocol board environment) (run_update binary image_crc32 session_id true)
      fun i world => Progress binary i world.handled.state where
  leads {i packet} h world hs := by
    have position := script_position h
    obtain ⟨hreply, hstate⟩ := @answer_packet board environment _ (position_fits position) world
    have step := packetStep board (environment world.processed).1 (environment world.processed).2
      packet world.handled.state
    rcases (position_progress (hflash _) hsize position step).1 hs with hnext | ⟨hstatus, hstays⟩
    · rw [hstate]
      exact Or.inl hnext
    · rw [hstate, hreply]
      refine Or.inr ⟨hstays, ?_⟩
      intro reply hmem hcheck
      cases hmem
      exact hstatus ((check_ack_iff _ _ _ _ _).mp hcheck).2.1
  keeps {i packet} h world hs := by
    have position := script_position h
    obtain ⟨-, hstate⟩ := @answer_packet board environment _ (position_fits position) world
    rw [hstate]
    exact (position_progress (hflash _) hsize position (packetStep ..)).2 hs
  later {i j packet other} h h' hlt world := by
    have position := script_position h
    obtain ⟨hreply, -⟩ := @answer_packet board environment _ (position_fits position) world
    rw [hreply]
    intro reply hmem hcheck
    cases hmem
    obtain ⟨hcommand, -, -, hsequence⟩ := (check_ack_iff _ _ _ _ _).mp hcheck
    have hplace := position_place hsize position
    rw [hcommand, hsequence, ← position_place hsize (script_position h')] at hplace
    omega
  damaged {i bytes} h world hs := by
    obtain ⟨hstate, -⟩ := @answer_damaged board environment bytes h world
    rwa [hstate]
  damaged_answer {bytes} h world := by
    obtain ⟨-, status, hreply⟩ := @answer_damaged board environment bytes h world
    rw [hreply]
    intro reply hmem packet hpacket hcheck
    cases hmem
    obtain ⟨i, hi⟩ := List.getElem?_of_mem hpacket
    have hcommand := ((check_ack_iff _ _ _ _ _).mp hcheck).1
    exact position_command (script_position hi) hcommand.symm
  damaged_reply {bytes} h packet _ hcheck :=
    h ((expect_ack_ok_iff _ _ _ _).mp hcheck).1

/-- At the last stage the tool and the device agree. -/
theorem progress_agrees {world : World}
    (h : Progress binary (blockCount binary + 4) world.handled.state) : Agrees binary world := by
  have hfilled := h.filled (by omega)
  obtain ⟨hrecorded, hreset⟩ := h.activated (by omega)
  have hslot : (boot_state_store_load world.copies).pending_slot =
      world.loop.session.target_slot := hrecorded.marks.pending_slot
  have hholds := hfilled.holds
  rw [List.take_of_length_le (full_le (by omega))] at hholds
  constructor
  case slot =>
    rw [hslot]
    exact hfilled.target
  case status =>
    rw [hslot]
    exact hrecorded.marks.status
  case image =>
    rw [hslot]
    exact hholds
  case reset => exact hreset

/-- Whatever the line loses, doubles and damages, and whatever the flash and the
saves do: when `run_update` returns, the device has the binary in a pending slot
and asks for a reset, unless the stored generation is the last one at the start. -/
theorem update_agrees (hflash : ∀ k, LawfulFlash (environment k).1) {world : World}
    (hroom : generationOf (boot_state_store_load world.copies) ≠ 2 ^ 32 - 1)
    {link : Link UpdatePacket (List UInt8) (List UInt8) World ToolError}
    (run : Run (protocol board environment)
      (start_update board environment binary image_crc32 session_id world) link)
    (returned : link.sender = .Returned) : Agrees binary link.receiver := by
  unfold start_update at run
  split at run
  · cases (raised_stays run rfl).symm.trans returned
  · rename_i hsize
    have hlt := generation_lt (boot_state_store_load world.copies)
    have hstart : Progress binary 0 world.handled.state :=
      .early (by omega) (fun h0 => absurd h0 (by omega))
        (show generationOf (boot_state_store_load world.copies) + 1 < 2 ^ 32 by omega)
    have hlast := returned_stage (update_laws hflash (Nat.not_le.mp hsize)) hstart run returned
    rw [length_script] at hlast
    exact progress_agrees hlast

end

/-! ## A line without faults -/

/-- The flash and the saves succeed. -/
def plainEnvironment (board : Board) : Environment := fun _ => (driver board noFault, .Completes)

/-- The update mode after a reset. -/
def resetWorld (copies : Copies) (slots : Slots) : World := { freshWorld with copies, slots }

/-- A row of packets that are answered with OK is a script that the device serves. -/
theorem serves_of_ok {board : Board} {packets : List UpdatePacket}
    (hfits : ∀ packet ∈ packets, packet.payload_len.toNat ≤ 128) (world : World)
    (hok : ∀ status ∈ (processAll board (packets.map (plain board)) world.handled.state).1,
      status = .Ok) :
    ∃ last, Serves (protocol board (plainEnvironment board)) packets world last ∧
      last.handled.state = (processAll board (packets.map (plain board)) world.handled.state).2 := by
  induction packets generalizing world with
  | nil => exact ⟨world, .nil world, rfl⟩
  | cons packet packets ih =>
    obtain ⟨hreply, hstate⟩ := @answer_packet board (plainEnvironment board) packet
      (hfits packet (List.mem_cons_self ..)) world
    have hfirst : (processed board (plainEnvironment board) packet world).1 = .Ok :=
      hok _ (List.mem_cons_self ..)
    have hnext : ((protocol board (plainEnvironment board)).answer
        ((protocol board (plainEnvironment board)).wire packet) world).2.handled.state =
        (processOne board (plain board packet) world.handled.state).2 := hstate
    obtain ⟨last, hserves, hlast⟩ := ih (fun p hp => hfits p (List.mem_cons_of_mem _ hp))
      ((protocol board (plainEnvironment board)).answer
        ((protocol board (plainEnvironment board)).wire packet) world).2 (by
        rw [hnext]
        exact fun status hmem => hok status (List.mem_cons_of_mem _ hmem))
    rw [hnext] at hlast
    refine ⟨last, .cons hreply ?_ hserves, hlast⟩
    exact (check_ack_iff packet packet.command _ packet.session_id packet.sequence).mpr
      ⟨rfl, hfirst, rfl, rfl⟩

theorem run_update_activated (binary : List UInt8) (image_crc32 session_id : UInt32) :
    run_update binary image_crc32 session_id true =
      run_update binary image_crc32 session_id false ++ [bare UPDATE_CMD_ACTIVATE session_id] := by
  simp [run_update]

/-- From any state, the update with the small image is answered with OK, and its
last packet saves the record of the activation. -/
theorem small_update (state : UpdateState) : ∃ image_crc32,
    RunsTo (processOne .F446) .Ok
      ((run_update (smallBinary 0 2) image_crc32 7 true).map (plain .F446)) state fun last =>
        ∃ record, RecordStep (boot_state_store_load state.copies) record ∧
          last.copies = (boot_state_store_save_next state.copies record .Completes).1 := by
  obtain ⟨metadata, hruns⟩ := small_download_run
  have hrun := hruns state
  refine ⟨metadata.image_crc32, ?_⟩
  rw [run_update_activated, List.map_append]
  refine .append hrun fun last hstage => ?_
  obtain ⟨step, hout⟩ := activate_saves (plain_carries .F446 (bare UPDATE_CMD_ACTIVATE 7))
    (by rw [hstage.session_eq])
  rw [hstage.copies_eq] at step hout
  refine .cons ?_ (.nil ?_)
  · rw [hout]
  · rw [hout]
    exact ⟨_, step, rfl⟩

/-- Over a line without faults, the tool sends the small image and returns. -/
theorem small_run (world : World) : ∃ image_crc32 last record,
    Run (protocol .F446 (plainEnvironment .F446))
        (start_update .F446 (plainEnvironment .F446) (smallBinary 0 2) image_crc32 7 world)
        { sender := .Returned, requests := [], replies := [], receiver := last } ∧
      RecordStep (boot_state_store_load world.copies) record ∧
      last.copies = (boot_state_store_save_next world.copies record .Completes).1 := by
  obtain ⟨image_crc32, hok, record, hstep, hcopies⟩ := small_update world.handled.state
  have hfits : ∀ packet ∈ run_update (smallBinary 0 2) image_crc32 7 true,
      packet.payload_len.toNat ≤ 128 := by
    intro packet hpacket
    obtain ⟨i, hi⟩ := List.getElem?_of_mem hpacket
    exact position_fits (script_position hi)
  obtain ⟨last, hserves, hlast⟩ := serves_of_ok hfits world hok
  have hsize : ¬ (smallBinary 0 2).length ≥ 2 ^ 32 := by
    rw [length_smallBinary 0 (by decide)]
    decide
  refine ⟨image_crc32, last, record, ?_, hstep, ?_⟩
  · unfold start_update
    rw [if_neg hsize]
    exact serves_run hserves
  · calc last.copies = last.handled.state.copies := rfl
      _ = _ := by rw [hlast]; exact hcopies

/-- The update of a fresh F446 returns, and the two agree. -/
theorem update_agrees_fresh : ∃ image_crc32 link,
    Run (protocol .F446 (plainEnvironment .F446))
        (start_update .F446 (plainEnvironment .F446) (smallBinary 0 2) image_crc32 7 freshWorld)
        link ∧
      link.sender = .Returned ∧ Agrees (smallBinary 0 2) link.receiver := by
  obtain ⟨image_crc32, last, record, hrun, -, -⟩ := small_run freshWorld
  have hroom : generationOf (boot_state_store_load freshWorld.copies) ≠ 2 ^ 32 - 1 := by
    have hcopies : freshWorld.copies = erasedCopies := rfl
    rw [hcopies, provisioned_generation .erased]
    decide
  exact ⟨image_crc32, _, hrun, rfl,
    update_agrees (fun _ => driver_lawful .F446 noFault) hroom hrun rfl⟩

/-- At the last generation the record of the activation does not come into force. -/
theorem last_generation_run {copies : Copies} (slots : Slots) (hstore : StoreReachable copies)
    (hlast : generationOf (boot_state_store_load copies) = 2 ^ 32 - 1)
    (hnone : (boot_state_store_load copies).pending_slot = BOOT_STATE_NO_SLOT) :
    ∃ image_crc32 link,
      Run (protocol .F446 (plainEnvironment .F446))
        (start_update .F446 (plainEnvironment .F446) (smallBinary 0 2) image_crc32 7
          (resetWorld copies slots)) link ∧
      link.sender = .Returned ∧
      (boot_state_store_load link.receiver.copies).pending_slot = BOOT_STATE_NO_SLOT ∧
      ¬ Agrees (smallBinary 0 2) link.receiver := by
  obtain ⟨image_crc32, last, record, hrun, hstep, hcopies⟩ := small_run (resetWorld copies slots)
  have hload : boot_state_store_load last.copies = boot_state_store_load copies := by
    rw [hcopies]
    exact (load_one_completed hstore.good.aligned hstep).trans (if_pos hlast)
  have hpending : (boot_state_store_load last.copies).pending_slot = BOOT_STATE_NO_SLOT := by
    rw [hload]
    exact hnone
  refine ⟨image_crc32, _, hrun, rfl, hpending, ?_⟩
  intro hagrees
  exact slot_ne_none hagrees.slot hpending

section
variable {device : Device}

/-- A trial boot and its confirmation use up the last generations. -/
theorem confirmed_last {board : Board} {slot : UInt32} (hslot : slot_is_valid slot)
    (h : AwaitsTrial board slot (2 ^ 32 - 3) device) :
    let last := (device.step board quietBoot).step board (.Confirm .Completes)
    generationOf (boot_state_store_load last.copies) = 2 ^ 32 - 1 ∧
      (boot_state_store_load last.copies).pending_slot = BOOT_STATE_NO_SLOT := by
  obtain ⟨hload, hgen, -⟩ := confirmed_boot hslot h (by decide)
  have hpending : slot_is_valid
      (countAttempt (boot_state_store_load device.copies)).pending_slot := by
    rw [countAttempt_pending_slot, h.pending]
    exact hslot
  refine ⟨hgen, ?_⟩
  rw [hload]
  exact (confirm_pending_spec hpending).2.pending_slot

end

/-- A device that has confirmed an image with its last generation: the tool
returns, and nothing is pending. -/
theorem last_generation_disagrees : ∃ first_crc32 image_crc32,
    let device := (firstDevice erasedCopies erasedSlots).run .F446
      (repeatedActivation first_crc32 (2 ^ 32 - 3) ++ [quietBoot, .Confirm .Completes])
    ∃ link,
      Run (protocol .F446 (plainEnvironment .F446))
        (start_update .F446 (plainEnvironment .F446) (smallBinary 0 2) image_crc32 7
          (resetWorld device.copies device.slots)) link ∧
      link.sender = .Returned ∧
      (boot_state_store_load link.receiver.copies).pending_slot = BOOT_STATE_NO_SLOT ∧
      ¬ Agrees (smallBinary 0 2) link.receiver := by
  obtain ⟨first_crc32, hruns⟩ := repeatedActivation_run
  have hawaits := hruns (2 ^ 32 - 3) (by decide) (by decide)
  have hstore := (@run_reachable .F446 erasedCopies .erased erasedSlots
    (repeatedActivation first_crc32 (2 ^ 32 - 3) ++ [quietBoot, .Confirm .Completes])).store
  obtain ⟨hgen, hnone⟩ := confirmed_last (Or.inl rfl) hawaits
  rw [← run_two] at hgen hnone
  exact ⟨first_crc32, last_generation_run _ hstore hgen hnone⟩

end stm32_vibe.lossy_link
