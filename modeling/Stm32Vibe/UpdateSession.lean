-- The update session: one packet at a time, with the flash calls and the saves
-- that it makes. Each command is described once, and the laws use only that.
import Stm32Vibe.AppImage
import Stm32Vibe.BootFlash
import Stm32Vibe.SaveHistory
import Stm32Vibe.UpdateProtocol
import Stm32Vibe.Lib.AtLeastOnce

namespace stm32_vibe.update_session

open little_endian boot_state boot_policy boot_state_store app_image boot_flash save_history
  update_protocol

/-! ## The session -/

structure BootUpdateSession where
  session_id : UInt32
  expected_image_size : UInt32
  expected_image_crc32 : UInt32
  target_slot : UInt32
  candidate_version : UInt32
  candidate_crc32 : UInt32
  received_image_size : UInt32
  session_active : Bool
  transfer_complete : Bool
  candidate_valid : Bool
  reset_requested : Bool
deriving DecidableEq, Repr

def boot_update_session_init : BootUpdateSession where
  session_id := 0
  expected_image_size := 0
  expected_image_crc32 := 0
  target_slot := BOOT_SLOT_B
  candidate_version := 0
  candidate_crc32 := 0
  received_image_size := 0
  session_active := false
  transfer_complete := false
  candidate_valid := false
  reset_requested := false

/-- A call of the flash driver that changes a slot. -/
inductive FlashCall where
  | Erase (slot image_size : UInt32)
  | Write (slot offset : UInt32) (data : List UInt8)
deriving DecidableEq, Repr

def FlashCall.slot : FlashCall → UInt32
  | .Erase slot _ => slot
  | .Write slot _ _ => slot

/-- The session and what it changes, with its flash calls and saves in order. -/
structure UpdateState where
  session : BootUpdateSession
  copies : Copies
  slots : Slots
  saves : List (BootStateRecord × SaveOutcome)
  flash_calls : List FlashCall

/-! ## The commands -/

def command_requires_active_session (command : UInt8) : Prop :=
  command = UPDATE_CMD_BLOCK ∨ command = UPDATE_CMD_END ∨ command = UPDATE_CMD_VALIDATE ∨
    command = UPDATE_CMD_ACTIVATE ∨ command = UPDATE_CMD_ABORT

instance (command : UInt8) : Decidable (command_requires_active_session command) :=
  inferInstanceAs (Decidable (_ ∨ _))

def handle_begin (board : Board) (flash : BootFlash) (packet : UpdatePacket)
    (state : UpdateState) : UpdateStatus × UpdateState :=
  if packet.payload_len ≠ 8 then (.BadLength, state)
  else
    let image_size := read_u32_le packet.payload 0
    if image_size = 0 ∨ image_size > APP_SLOT_SIZE board then (.BadLength, state)
    else
      let target_slot := boot_policy_inactive_slot (boot_state_store_load state.copies)
      let (result, slots) := flash.erase_slot state.slots target_slot image_size
      let state :=
        { state with slots, flash_calls := state.flash_calls ++ [.Erase target_slot image_size] }
      if result ≠ .Ok then (.FlashError, state)
      else
        (.Ok, { state with
          session := { state.session with
            session_id := packet.session_id
            expected_image_size := image_size
            expected_image_crc32 := read_u32_le packet.payload 4
            target_slot
            received_image_size := 0
            candidate_version := 0
            candidate_crc32 := 0
            session_active := true
            transfer_complete := false
            candidate_valid := false } })

/-- The loop of `handle_block` over a block that was written before. -/
def blockMatches (image : Image) (sequence : UInt32) (payload : List UInt8) : Bool :=
  (List.range payload.length).all fun index =>
    image (sequence + index.toUInt32).toNat = payload.getD index 0

def handle_block (flash : BootFlash) (packet : UpdatePacket) (state : UpdateState) :
    UpdateStatus × UpdateState :=
  let session := state.session
  if packet.payload_len = 0 ∨ packet.sequence > session.expected_image_size ∨
      packet.payload_len.toUInt32 > session.expected_image_size - packet.sequence then
    (.BadSequence, state)
  else if packet.sequence < session.received_image_size then
    if packet.payload_len.toUInt32 > session.received_image_size - packet.sequence then
      (.BadSequence, state)
    else
      match boot_flash_slot_base state.slots session.target_slot with
      | none => (.BadState, state)
      | some target_base =>
        if ¬ blockMatches target_base packet.sequence packet.payload then (.BadSequence, state)
        else (.Ok, state)
  else if packet.sequence ≠ session.received_image_size then (.BadSequence, state)
  else
    let (result, slots) :=
      flash.write_slot state.slots session.target_slot packet.sequence packet.payload
    let state :=
      { state with
        slots
        flash_calls :=
          state.flash_calls ++ [.Write session.target_slot packet.sequence packet.payload] }
    if result ≠ .Ok then (.FlashError, state)
    else
      (.Ok, { state with
        session := { session with
          received_image_size := session.received_image_size + packet.payload_len.toUInt32 } })

def handle_validate (board : Board) (state : UpdateState) : UpdateStatus × UpdateState :=
  let session := state.session
  let slot_start :=
    if session.target_slot = BOOT_SLOT_A then APP_SLOT_A_START_ADDR board
    else APP_SLOT_B_START_ADDR board
  let slot_end :=
    if session.target_slot = BOOT_SLOT_A then APP_SLOT_A_END_ADDR board
    else APP_SLOT_B_END_ADDR board
  if session.transfer_complete = false then (.BadState, state)
  else
    match boot_flash_slot_base state.slots session.target_slot with
    | none => (.BadState, state)
    | some target_base =>
      let image_result := app_image_validate target_base (APP_SLOT_SIZE board)
      if image_result.status ≠ .Valid ∨ image_result.image_size ≠ session.expected_image_size ∨
          image_result.expected_crc32 ≠ session.expected_image_crc32 then (.BadImage, state)
      else if ¬ vectorsAccepted board target_base image_result.image_size slot_start slot_end then
        (.BadImage, state)
      else
        (.Ok, { state with
          session := { session with
            candidate_version := image_result.version
            candidate_crc32 := image_result.expected_crc32
            candidate_valid := true } })

/-- After a save that lost power nobody sees the status. -/
def handle_activate (save : SaveOutcome) (state : UpdateState) : UpdateStatus × UpdateState :=
  let session := state.session
  if session.candidate_valid = false then (.BadState, state)
  else
    let boot_state := boot_policy_mark_slot_pending (boot_state_store_load state.copies)
      session.target_slot session.candidate_version session.candidate_crc32
    let (copies, ok) := boot_state_store_save_next state.copies boot_state save
    let state := { state with copies, saves := state.saves ++ [(boot_state, save)] }
    if ¬ ok then (.FlashError, state)
    else (.Ok, { state with session := { session with reset_requested := true } })

/-- One packet, with the flash and the end of the save that it meets. -/
def boot_update_session_process (board : Board) (flash : BootFlash) (save : SaveOutcome)
    (packet : UpdatePacket) (state : UpdateState) : UpdateStatus × UpdateState :=
  if command_requires_active_session packet.command ∧
      (state.session.session_active = false ∨
        packet.session_id ≠ state.session.session_id) then (.BadState, state)
  else if packet.command = UPDATE_CMD_DISCOVER ∨ packet.command = UPDATE_CMD_STATUS ∨
      packet.command = UPDATE_CMD_ENTER_UPDATE then (.Ok, state)
  else if packet.command = UPDATE_CMD_BEGIN then handle_begin board flash packet state
  else if packet.command = UPDATE_CMD_BLOCK then handle_block flash packet state
  else if packet.command = UPDATE_CMD_END then
    if state.session.received_image_size ≠ state.session.expected_image_size then
      (.BadLength, state)
    else (.Ok, { state with session := { state.session with transfer_complete := true } })
  else if packet.command = UPDATE_CMD_VALIDATE then handle_validate board state
  else if packet.command = UPDATE_CMD_ACTIVATE then handle_activate save state
  else if packet.command = UPDATE_CMD_ABORT then
    (.Ok, { state with session := boot_update_session_init })
  else (.InvalidArgument, state)

/-! ## What each command does -/

/-- A BEGIN whose arguments pass: it erases the inactive slot. -/
def BeginAccepted (board : Board) (packet : UpdatePacket) : Prop :=
  packet.payload_len = 8 ∧ read_u32_le packet.payload 0 ≠ 0 ∧
    read_u32_le packet.payload 0 ≤ APP_SLOT_SIZE board

/-- The slot that a BEGIN erases. -/
def beginSlot (state : UpdateState) : UInt32 :=
  boot_policy_inactive_slot (boot_state_store_load state.copies)

theorem beginSlot_valid (state : UpdateState) : slot_is_valid (beginSlot state) :=
  inactive_slot_valid (load_inRange _).active_slot

/-- The session after a BEGIN. -/
def BootUpdateSession.begun (session : BootUpdateSession) (packet : UpdatePacket)
    (target_slot : UInt32) : BootUpdateSession :=
  { session with
    session_id := packet.session_id
    expected_image_size := read_u32_le packet.payload 0
    expected_image_crc32 := read_u32_le packet.payload 4
    target_slot
    received_image_size := 0
    candidate_version := 0
    candidate_crc32 := 0
    session_active := true
    transfer_complete := false
    candidate_valid := false }

/-- A block that goes on where the received bytes end. -/
structure BlockNew (session : BootUpdateSession) (packet : UpdatePacket) : Prop where
  nonempty : packet.payload.length ≠ 0
  sequence : packet.sequence = session.received_image_size
  room : packet.sequence.toNat + packet.payload.length ≤ session.expected_image_size.toNat

/-- What `handle_validate` finds before it returns OK. -/
structure CandidateAccepted (board : Board) (state : UpdateState) : Prop where
  target : slot_is_valid state.session.target_slot
  complete : state.session.transfer_complete = true
  image : (app_image_validate (state.slots.image state.session.target_slot)
    (APP_SLOT_SIZE board)).status = .Valid
  size : (manifestOf (state.slots.image state.session.target_slot)).image_size =
    state.session.expected_image_size
  crc : (manifestOf (state.slots.image state.session.target_slot)).image_crc32 =
    state.session.expected_image_crc32
  vectors : vectorsAccepted board (state.slots.image state.session.target_slot)
    (manifestOf (state.slots.image state.session.target_slot)).image_size
    (slot_base board state.session.target_slot) (slot_end board state.session.target_slot)

/-- The record that an ACTIVATE saves. -/
def activated (state : UpdateState) : BootStateRecord :=
  boot_policy_mark_slot_pending (boot_state_store_load state.copies) state.session.target_slot
    state.session.candidate_version state.session.candidate_crc32

/-- Everything that one packet can do to the state, with the status it returns. -/
inductive PacketStep (board : Board) (flash : BootFlash) (save : SaveOutcome)
    (packet : UpdatePacket) (state : UpdateState) : UpdateStatus → UpdateState → Prop
  /-- A packet that changes nothing. -/
  | idle (status : UpdateStatus)
      (quiet : status = .Ok → packet.command = UPDATE_CMD_DISCOVER ∨
        packet.command = UPDATE_CMD_STATUS ∨ packet.command = UPDATE_CMD_ENTER_UPDATE ∨
        (packet.command = UPDATE_CMD_BLOCK ∧
          packet.sequence < state.session.received_image_size)) :
      PacketStep board flash save packet state status state
  | begin_failed (command : packet.command = UPDATE_CMD_BEGIN)
      (accepted : BeginAccepted board packet)
      (failed : (flash.erase_slot state.slots (beginSlot state)
        (read_u32_le packet.payload 0)).1 ≠ .Ok) :
      PacketStep board flash save packet state .FlashError
        { state with
          slots := (flash.erase_slot state.slots (beginSlot state)
            (read_u32_le packet.payload 0)).2
          flash_calls :=
            state.flash_calls ++ [.Erase (beginSlot state) (read_u32_le packet.payload 0)] }
  | begun (command : packet.command = UPDATE_CMD_BEGIN) (accepted : BeginAccepted board packet)
      (erased : (flash.erase_slot state.slots (beginSlot state)
        (read_u32_le packet.payload 0)).1 = .Ok) :
      PacketStep board flash save packet state .Ok
        { state with
          session := state.session.begun packet (beginSlot state)
          slots := (flash.erase_slot state.slots (beginSlot state)
            (read_u32_le packet.payload 0)).2
          flash_calls :=
            state.flash_calls ++ [.Erase (beginSlot state) (read_u32_le packet.payload 0)] }
  | block_failed (command : packet.command = UPDATE_CMD_BLOCK)
      (active : state.session.session_active = true)
      (new : BlockNew state.session packet)
      (failed : (flash.write_slot state.slots state.session.target_slot packet.sequence
        packet.payload).1 ≠ .Ok) :
      PacketStep board flash save packet state .FlashError
        { state with
          slots := (flash.write_slot state.slots state.session.target_slot packet.sequence
            packet.payload).2
          flash_calls := state.flash_calls ++
            [.Write state.session.target_slot packet.sequence packet.payload] }
  | block (command : packet.command = UPDATE_CMD_BLOCK)
      (active : state.session.session_active = true)
      (new : BlockNew state.session packet)
      (written : (flash.write_slot state.slots state.session.target_slot packet.sequence
        packet.payload).1 = .Ok) :
      PacketStep board flash save packet state .Ok
        { state with
          session := { state.session with
            received_image_size :=
              state.session.received_image_size + packet.payload_len.toUInt32 }
          slots := (flash.write_slot state.slots state.session.target_slot packet.sequence
            packet.payload).2
          flash_calls := state.flash_calls ++
            [.Write state.session.target_slot packet.sequence packet.payload] }
  | ended (command : packet.command = UPDATE_CMD_END)
      (active : state.session.session_active = true)
      (received : state.session.received_image_size = state.session.expected_image_size) :
      PacketStep board flash save packet state .Ok
        { state with session := { state.session with transfer_complete := true } }
  | validated (command : packet.command = UPDATE_CMD_VALIDATE)
      (active : state.session.session_active = true) (accepted : CandidateAccepted board state) :
      PacketStep board flash save packet state .Ok
        { state with
          session := { state.session with
            candidate_version :=
              (manifestOf (state.slots.image state.session.target_slot)).software_version
            candidate_crc32 :=
              (manifestOf (state.slots.image state.session.target_slot)).image_crc32
            candidate_valid := true } }
  | activate_failed (command : packet.command = UPDATE_CMD_ACTIVATE)
      (active : state.session.session_active = true)
      (valid : state.session.candidate_valid = true) (incomplete : save ≠ .Completes) :
      PacketStep board flash save packet state .FlashError
        { state with
          copies := (boot_state_store_save_next state.copies (activated state) save).1
          saves := state.saves ++ [(activated state, save)] }
  | activated (command : packet.command = UPDATE_CMD_ACTIVATE)
      (active : state.session.session_active = true)
      (valid : state.session.candidate_valid = true) (completes : save = .Completes) :
      PacketStep board flash save packet state .Ok
        { state with
          session := { state.session with reset_requested := true }
          copies := (boot_state_store_save_next state.copies (activated state) save).1
          saves := state.saves ++ [(activated state, save)] }
  | aborted (command : packet.command = UPDATE_CMD_ABORT) :
      PacketStep board flash save packet state .Ok
        { state with session := boot_update_session_init }

section
variable {board : Board} {flash : BootFlash} {save : SaveOutcome} {packet : UpdatePacket}
  {state : UpdateState}

theorem toNat_payload_len (packet : UpdatePacket) :
    packet.payload_len.toUInt32.toNat = packet.payload.length := by
  rw [packet.length_payload]
  rfl

/-- The three bounds of `handle_block`, for a block at `sequence`. -/
theorem block_bounds {size : UInt32}
    (h : ¬ (packet.payload_len = 0 ∨ packet.sequence > size ∨
      packet.payload_len.toUInt32 > size - packet.sequence)) :
    packet.payload.length ≠ 0 ∧
      packet.sequence.toNat + packet.payload.length ≤ size.toNat := by
  simp only [not_or, gt_iff_lt, UInt32.not_lt] at h
  obtain ⟨h0, hseq, hlen⟩ := h
  have hsub := UInt32.le_iff_toNat_le.mp hlen
  rw [UInt32.toNat_sub_of_le _ _ hseq, toNat_payload_len] at hsub
  have hle := UInt32.le_iff_toNat_le.mp hseq
  refine ⟨?_, by omega⟩
  intro hzero
  rw [packet.length_payload] at hzero
  exact h0 (UInt16.toNat_inj.mp hzero)

theorem slot_bounds (board : Board) {slot : UInt32} (h : slot_is_valid slot) :
    (if slot = BOOT_SLOT_A then APP_SLOT_A_START_ADDR board else APP_SLOT_B_START_ADDR board) =
        slot_base board slot ∧
      (if slot = BOOT_SLOT_A then APP_SLOT_A_END_ADDR board else APP_SLOT_B_END_ADDR board) =
        slot_end board slot := by
  rcases h with rfl | rfl <;> exact ⟨rfl, rfl⟩

theorem handle_begin_step (command : packet.command = UPDATE_CMD_BEGIN) :
    PacketStep board flash save packet state (handle_begin board flash packet state).1
      (handle_begin board flash packet state).2 := by
  unfold handle_begin
  split
  · exact .idle .BadLength nofun
  · rename_i hlen
    dsimp only
    split
    · exact .idle .BadLength nofun
    · rename_i hsize
      simp only [not_or, gt_iff_lt, UInt32.not_lt, ne_eq, Decidable.not_not] at hlen hsize
      have accepted : BeginAccepted board packet := ⟨hlen, hsize.1, hsize.2⟩
      split
      · rename_i failed
        exact .begin_failed command accepted failed
      · rename_i erased
        exact .begun command accepted (Decidable.not_not.mp erased)

theorem handle_block_step (command : packet.command = UPDATE_CMD_BLOCK)
    (active : state.session.session_active = true) :
    PacketStep board flash save packet state (handle_block flash packet state).1
      (handle_block flash packet state).2 := by
  unfold handle_block
  dsimp only
  split
  · exact .idle .BadSequence nofun
  · rename_i hbounds
    obtain ⟨hnonempty, hroom⟩ := block_bounds hbounds
    split
    · rename_i hold
      split
      · exact .idle .BadSequence nofun
      · split
        · exact .idle .BadState nofun
        · split
          · exact .idle .BadSequence nofun
          · exact .idle .Ok fun _ => Or.inr (Or.inr (Or.inr ⟨command, hold⟩))
    · split
      · exact .idle .BadSequence nofun
      · rename_i hseq
        have new : BlockNew state.session packet :=
          ⟨hnonempty, Decidable.not_not.mp hseq, hroom⟩
        split
        · rename_i failed
          exact .block_failed command active new failed
        · rename_i written
          exact .block command active new (Decidable.not_not.mp written)

theorem handle_validate_step (command : packet.command = UPDATE_CMD_VALIDATE)
    (active : state.session.session_active = true) :
    PacketStep board flash save packet state (handle_validate board state).1
      (handle_validate board state).2 := by
  unfold handle_validate boot_flash_slot_base
  dsimp only
  split
  · exact .idle .BadState nofun
  · rename_i complete
    by_cases target : slot_is_valid state.session.target_slot
    · obtain ⟨hstart, hend⟩ := slot_bounds board target
      rw [if_pos target, hstart, hend]
      dsimp only
      split
      · exact .idle .BadImage nofun
      · rename_i hchecks
        simp only [not_or, ne_eq, Decidable.not_not] at hchecks
        obtain ⟨himage, hsize, hcrc⟩ := hchecks
        obtain ⟨hsame, hversion, hexpected⟩ := app_image_validate_valid himage
        split
        · exact .idle .BadImage nofun
        · rename_i hvectors
          rw [hversion, hexpected]
          rw [hsame] at hsize hvectors
          rw [hexpected] at hcrc
          exact .validated command active
            ⟨target, by simpa using complete, himage, hsize, hcrc, Decidable.not_not.mp hvectors⟩
    · rw [if_neg target]
      exact .idle .BadState nofun

theorem handle_activate_step (command : packet.command = UPDATE_CMD_ACTIVATE)
    (active : state.session.session_active = true) :
    PacketStep board flash save packet state (handle_activate save state).1
      (handle_activate save state).2 := by
  unfold handle_activate
  dsimp only
  split
  · exact .idle .BadState nofun
  · rename_i hvalid
    have valid : state.session.candidate_valid = true := by simpa using hvalid
    rw [save_next_result]
    split
    · rename_i hfailed
      exact .activate_failed command active valid (by simpa using hfailed)
    · rename_i hdone
      exact .activated command active valid (by simpa using hdone)

/-- The step that the session makes for a packet. -/
theorem packetStep (board : Board) (flash : BootFlash) (save : SaveOutcome)
    (packet : UpdatePacket) (state : UpdateState) :
    PacketStep board flash save packet state
      (boot_update_session_process board flash save packet state).1
      (boot_update_session_process board flash save packet state).2 := by
  unfold boot_update_session_process
  split
  · exact .idle .BadState nofun
  · rename_i hguard
    have active : command_requires_active_session packet.command →
        state.session.session_active = true := by
      intro hneeds
      by_contra hinactive
      exact hguard ⟨hneeds, Or.inl (by simpa using hinactive)⟩
    split
    · rename_i hquiet
      exact .idle .Ok fun _ => by
        rcases hquiet with h | h | h
        · exact Or.inl h
        · exact Or.inr (Or.inl h)
        · exact Or.inr (Or.inr (Or.inl h))
    · split
      · rename_i command
        exact handle_begin_step command
      · split
        · rename_i command
          exact handle_block_step command (active (Or.inl command))
        · split
          · rename_i command
            split
            · exact .idle .BadLength nofun
            · rename_i received
              exact .ended command (active (Or.inr (Or.inl command)))
                (Decidable.not_not.mp received)
          · split
            · rename_i command
              exact handle_validate_step command (active (Or.inr (Or.inr (Or.inl command))))
            · split
              · rename_i command
                exact handle_activate_step command
                  (active (Or.inr (Or.inr (Or.inr (Or.inl command)))))
              · split
                · rename_i command
                  exact .aborted command
                · exact .idle .InvalidArgument nofun

/-! ## Packets that succeed -/

/-- The packet belongs to the active session. -/
structure OfSession (packet : UpdatePacket) (state : UpdateState) : Prop where
  active : state.session.session_active = true
  session_id : packet.session_id = state.session.session_id

theorem ofSession_of_eq {session : BootUpdateSession} (h : state.session = session)
    (active : session.session_active = true) (hid : packet.session_id = session.session_id) :
    OfSession packet state := by
  subst h
  exact ⟨active, hid⟩

theorem not_foreign (h : OfSession packet state) :
    ¬ (command_requires_active_session packet.command ∧
      (state.session.session_active = false ∨ packet.session_id ≠ state.session.session_id)) := by
  rintro ⟨-, hf | hf⟩
  · rw [h.active] at hf; cases hf
  · exact hf h.session_id

theorem dispatch_begin (command : packet.command = UPDATE_CMD_BEGIN) :
    boot_update_session_process board flash save packet state =
      handle_begin board flash packet state := by
  have hfree : ¬ command_requires_active_session UPDATE_CMD_BEGIN := by decide
  have hquiet : ¬ (UPDATE_CMD_BEGIN = UPDATE_CMD_DISCOVER ∨ UPDATE_CMD_BEGIN = UPDATE_CMD_STATUS ∨
      UPDATE_CMD_BEGIN = UPDATE_CMD_ENTER_UPDATE) := by decide
  unfold boot_update_session_process
  simp only [command, hfree, false_and, if_false, hquiet, if_true]

theorem dispatch_validate (command : packet.command = UPDATE_CMD_VALIDATE)
    (h : OfSession packet state) :
    boot_update_session_process board flash save packet state = handle_validate board state := by
  have hquiet : ¬ (UPDATE_CMD_VALIDATE = UPDATE_CMD_DISCOVER ∨
      UPDATE_CMD_VALIDATE = UPDATE_CMD_STATUS ∨
      UPDATE_CMD_VALIDATE = UPDATE_CMD_ENTER_UPDATE) := by decide
  have hbegin : ¬ UPDATE_CMD_VALIDATE = UPDATE_CMD_BEGIN := by decide
  have hblock : ¬ UPDATE_CMD_VALIDATE = UPDATE_CMD_BLOCK := by decide
  have hend : ¬ UPDATE_CMD_VALIDATE = UPDATE_CMD_END := by decide
  unfold boot_update_session_process
  rw [if_neg (not_foreign h)]
  simp only [command, hquiet, hbegin, hblock, hend, if_false, if_true]

theorem dispatch_activate (command : packet.command = UPDATE_CMD_ACTIVATE)
    (h : OfSession packet state) :
    boot_update_session_process board flash save packet state = handle_activate save state := by
  have hquiet : ¬ (UPDATE_CMD_ACTIVATE = UPDATE_CMD_DISCOVER ∨
      UPDATE_CMD_ACTIVATE = UPDATE_CMD_STATUS ∨
      UPDATE_CMD_ACTIVATE = UPDATE_CMD_ENTER_UPDATE) := by decide
  have hbegin : ¬ UPDATE_CMD_ACTIVATE = UPDATE_CMD_BEGIN := by decide
  have hblock : ¬ UPDATE_CMD_ACTIVATE = UPDATE_CMD_BLOCK := by decide
  have hend : ¬ UPDATE_CMD_ACTIVATE = UPDATE_CMD_END := by decide
  have hvalidate : ¬ UPDATE_CMD_ACTIVATE = UPDATE_CMD_VALIDATE := by decide
  unfold boot_update_session_process
  rw [if_neg (not_foreign h)]
  simp only [command, hquiet, hbegin, hblock, hend, hvalidate, if_false, if_true]

theorem process_begin (command : packet.command = UPDATE_CMD_BEGIN)
    (accepted : BeginAccepted board packet)
    (erased : (flash.erase_slot state.slots (beginSlot state)
      (read_u32_le packet.payload 0)).1 = .Ok) :
    boot_update_session_process board flash save packet state =
      (.Ok, { state with
        session := state.session.begun packet (beginSlot state)
        slots := (flash.erase_slot state.slots (beginSlot state)
          (read_u32_le packet.payload 0)).2
        flash_calls :=
          state.flash_calls ++ [.Erase (beginSlot state) (read_u32_le packet.payload 0)] }) := by
  obtain ⟨hlen, hzero, hle⟩ := accepted
  unfold beginSlot at erased ⊢
  rw [dispatch_begin command]
  unfold handle_begin
  simp only [hlen, ne_eq, not_true_eq_false, if_false, hzero, gt_iff_lt, UInt32.not_lt.mpr hle,
    or_self, erased]
  rfl

theorem process_begin_failed (command : packet.command = UPDATE_CMD_BEGIN)
    (accepted : BeginAccepted board packet)
    (failed : (flash.erase_slot state.slots (beginSlot state)
      (read_u32_le packet.payload 0)).1 ≠ .Ok) :
    boot_update_session_process board flash save packet state =
      (.FlashError, { state with
        slots := (flash.erase_slot state.slots (beginSlot state)
          (read_u32_le packet.payload 0)).2
        flash_calls :=
          state.flash_calls ++ [.Erase (beginSlot state) (read_u32_le packet.payload 0)] }) := by
  obtain ⟨hlen, hzero, hle⟩ := accepted
  unfold beginSlot at failed ⊢
  rw [dispatch_begin command]
  unfold handle_begin
  simp only [hlen, ne_eq, not_true_eq_false, if_false, hzero, gt_iff_lt, UInt32.not_lt.mpr hle,
    or_self, failed, not_false_eq_true, if_true]

theorem process_block (command : packet.command = UPDATE_CMD_BLOCK) (h : OfSession packet state) :
    boot_update_session_process board flash save packet state =
      handle_block flash packet state := by
  have hquiet : ¬ (UPDATE_CMD_BLOCK = UPDATE_CMD_DISCOVER ∨ UPDATE_CMD_BLOCK = UPDATE_CMD_STATUS ∨
      UPDATE_CMD_BLOCK = UPDATE_CMD_ENTER_UPDATE) := by decide
  have hbegin : ¬ UPDATE_CMD_BLOCK = UPDATE_CMD_BEGIN := by decide
  unfold boot_update_session_process
  rw [if_neg (not_foreign h)]
  simp only [command, hquiet, hbegin, if_false, if_true]

theorem block_in_bounds {size : UInt32} (h0 : packet.payload.length ≠ 0)
    (hroom : packet.sequence.toNat + packet.payload.length ≤ size.toNat) :
    ¬ (packet.payload_len = 0 ∨ packet.sequence > size ∨
      packet.payload_len.toUInt32 > size - packet.sequence) := by
  have hseq : packet.sequence ≤ size := UInt32.le_iff_toNat_le.mpr (by omega)
  rintro (h | h | h)
  · rw [packet.length_payload, h] at h0
    exact h0 rfl
  · exact UInt32.not_lt.mpr hseq h
  · rw [gt_iff_lt, UInt32.lt_iff_toNat_lt, UInt32.toNat_sub_of_le _ _ hseq,
      toNat_payload_len] at h
    omega

theorem process_block_new (command : packet.command = UPDATE_CMD_BLOCK)
    (h : OfSession packet state) (new : BlockNew state.session packet)
    (written : (flash.write_slot state.slots state.session.target_slot packet.sequence
      packet.payload).1 = .Ok) :
    boot_update_session_process board flash save packet state =
      (.Ok, { state with
        session := { state.session with
          received_image_size :=
            state.session.received_image_size + packet.payload_len.toUInt32 }
        slots := (flash.write_slot state.slots state.session.target_slot packet.sequence
          packet.payload).2
        flash_calls := state.flash_calls ++
          [.Write state.session.target_slot packet.sequence packet.payload] }) := by
  have hbounds := block_in_bounds new.nonempty new.room
  have hnew : ¬ packet.sequence < state.session.received_image_size := by
    rw [new.sequence]
    exact UInt32.lt_irrefl _
  rw [process_block command h]
  unfold handle_block
  dsimp only
  rw [if_neg hbounds, if_neg hnew, if_neg (not_not.mpr new.sequence),
    if_neg (not_not.mpr written)]

/-- A block that was received before and still stands in the slot changes nothing. -/
theorem process_block_again (command : packet.command = UPDATE_CMD_BLOCK)
    (h : OfSession packet state) (target : slot_is_valid state.session.target_slot)
    (h0 : packet.payload.length ≠ 0)
    (hreceived : packet.sequence.toNat + packet.payload.length ≤
      state.session.received_image_size.toNat)
    (hle : state.session.received_image_size ≤ state.session.expected_image_size)
    (stands : ∀ (k : Nat) (hk : k < packet.payload.length),
      state.slots.image state.session.target_slot (packet.sequence.toNat + k) =
        packet.payload[k]) :
    boot_update_session_process board flash save packet state = (.Ok, state) := by
  have hle' := UInt32.le_iff_toNat_le.mp hle
  have hbounds := @block_in_bounds packet state.session.expected_image_size h0 (by omega)
  have hold : packet.sequence < state.session.received_image_size :=
    UInt32.lt_iff_toNat_lt.mpr (by omega)
  have hin := block_in_bounds h0 hreceived
  simp only [not_or] at hin
  have hmatch : blockMatches (state.slots.image state.session.target_slot) packet.sequence
      packet.payload = true := by
    unfold blockMatches
    rw [List.all_eq_true]
    intro k hk
    rw [List.mem_range] at hk
    have hlt := state.session.received_image_size.toNat_lt
    have hk32 : k.toUInt32.toNat = k := UInt32.toNat_ofNat_of_lt' (by show k < 2 ^ 32; omega)
    have hsum : (packet.sequence + k.toUInt32).toNat = packet.sequence.toNat + k := by
      rw [UInt32.toNat_add, hk32]
      exact Nat.mod_eq_of_lt (by omega)
    rw [hsum, stands k hk, decide_eq_true_eq]
    exact (List.getD_eq_getElem _ _ hk).symm
  rw [process_block command h]
  unfold handle_block boot_flash_slot_base
  dsimp only
  rw [if_neg hbounds, if_pos hold, if_neg hin.2.2, if_pos target]
  dsimp only
  rw [if_neg (not_not.mpr hmatch)]

theorem process_end (command : packet.command = UPDATE_CMD_END) (h : OfSession packet state)
    (received : state.session.received_image_size = state.session.expected_image_size) :
    boot_update_session_process board flash save packet state =
      (.Ok, { state with session := { state.session with transfer_complete := true } }) := by
  have hquiet : ¬ (UPDATE_CMD_END = UPDATE_CMD_DISCOVER ∨ UPDATE_CMD_END = UPDATE_CMD_STATUS ∨
      UPDATE_CMD_END = UPDATE_CMD_ENTER_UPDATE) := by decide
  have hbegin : ¬ UPDATE_CMD_END = UPDATE_CMD_BEGIN := by decide
  have hblock : ¬ UPDATE_CMD_END = UPDATE_CMD_BLOCK := by decide
  unfold boot_update_session_process
  rw [if_neg (not_foreign h)]
  simp only [command, hquiet, hbegin, hblock, if_false, if_true, received, ne_eq,
    not_true_eq_false]

theorem process_validate (command : packet.command = UPDATE_CMD_VALIDATE)
    (h : OfSession packet state) (accepted : CandidateAccepted board state) :
    boot_update_session_process board flash save packet state =
      (.Ok, { state with
        session := { state.session with
          candidate_version :=
            (manifestOf (state.slots.image state.session.target_slot)).software_version
          candidate_crc32 :=
            (manifestOf (state.slots.image state.session.target_slot)).image_crc32
          candidate_valid := true } }) := by
  obtain ⟨hstart, hlimit⟩ := slot_bounds board accepted.target
  obtain ⟨hsame, hversion, hexpected⟩ := app_image_validate_valid accepted.image
  rw [dispatch_validate command h]
  unfold handle_validate boot_flash_slot_base
  simp only [if_false, if_true, accepted.complete, Bool.true_eq_false, accepted.target,
    accepted.image, hsame, hversion, hexpected, accepted.size, accepted.crc, ne_eq,
    not_true_eq_false, or_self, hstart, hlimit]
  have hvectors := accepted.vectors
  rw [accepted.size] at hvectors
  rw [if_neg (not_not.mpr hvectors)]

theorem process_activate (command : packet.command = UPDATE_CMD_ACTIVATE)
    (h : OfSession packet state) (valid : state.session.candidate_valid = true) :
    boot_update_session_process board flash .Completes packet state =
      (.Ok, { state with
        session := { state.session with reset_requested := true }
        copies := (boot_state_store_save_next state.copies (activated state) .Completes).1
        saves := state.saves ++ [(activated state, .Completes)] }) := by
  rw [dispatch_activate command h]
  unfold handle_activate
  simp only [valid, Bool.true_eq_false, if_false, save_next_completes, not_true_eq_false]
  rfl

/-- An ACTIVATE whose save does not complete. -/
theorem process_activate_failed (command : packet.command = UPDATE_CMD_ACTIVATE)
    (h : OfSession packet state) (valid : state.session.candidate_valid = true)
    (incomplete : save ≠ .Completes) :
    boot_update_session_process board flash save packet state =
      (.FlashError, { state with
        copies := (boot_state_store_save_next state.copies (activated state) save).1
        saves := state.saves ++ [(activated state, save)] }) := by
  rw [dispatch_activate command h]
  unfold handle_activate
  simp only [valid, Bool.true_eq_false, if_false, save_next_result, decide_eq_true_eq,
    incomplete, not_false_eq_true, if_true]
  rfl

/-! ## Packets that returned OK -/

/-- A VALIDATE that returns OK has accepted the candidate. -/
theorem validate_ok (command : packet.command = UPDATE_CMD_VALIDATE)
    (hok : (boot_update_session_process board flash save packet state).1 = .Ok) :
    state.session.session_active = true ∧ CandidateAccepted board state := by
  have step := packetStep board flash save packet state
  generalize (boot_update_session_process board flash save packet state).2 = next at step
  rw [hok] at step
  generalize hs : UpdateStatus.Ok = status at step
  cases step with
  | idle status quiet =>
    rcases quiet hs.symm with h | h | h | ⟨h, -⟩ <;>
      exact absurd (command.symm.trans h) (by decide)
  | validated _ active accepted => exact ⟨active, accepted⟩
  | begin_failed h _ _ => exact absurd (command.symm.trans h) (by decide)
  | begun h _ _ => exact absurd (command.symm.trans h) (by decide)
  | block_failed h _ _ _ => exact absurd (command.symm.trans h) (by decide)
  | block h _ _ _ => exact absurd (command.symm.trans h) (by decide)
  | ended h _ _ => exact absurd (command.symm.trans h) (by decide)
  | activate_failed h _ _ _ => exact absurd (command.symm.trans h) (by decide)
  | activated h _ _ _ => exact absurd (command.symm.trans h) (by decide)
  | aborted h => exact absurd (command.symm.trans h) (by decide)

/-- An ACTIVATE that returns OK has saved the record of the candidate. -/
theorem activate_ok (command : packet.command = UPDATE_CMD_ACTIVATE)
    (hok : (boot_update_session_process board flash save packet state).1 = .Ok) :
    state.session.session_active = true ∧ state.session.candidate_valid = true ∧
      (boot_update_session_process board flash save packet state).2 =
        { state with
          session := { state.session with reset_requested := true }
          copies := (boot_state_store_save_next state.copies (activated state) .Completes).1
          saves := state.saves ++ [(activated state, .Completes)] } := by
  have step := packetStep board flash save packet state
  generalize (boot_update_session_process board flash save packet state).2 = next at step ⊢
  rw [hok] at step
  generalize hs : UpdateStatus.Ok = status at step
  cases step with
  | idle status quiet =>
    rcases quiet hs.symm with h | h | h | ⟨h, -⟩ <;>
      exact absurd (command.symm.trans h) (by decide)
  | activated _ active valid completes =>
    rw [completes]
    exact ⟨active, valid, rfl⟩
  | activate_failed _ _ _ _ => cases hs
  | begin_failed h _ _ => exact absurd (command.symm.trans h) (by decide)
  | begun h _ _ => exact absurd (command.symm.trans h) (by decide)
  | block_failed h _ _ _ => exact absurd (command.symm.trans h) (by decide)
  | block h _ _ _ => exact absurd (command.symm.trans h) (by decide)
  | ended h _ _ => exact absurd (command.symm.trans h) (by decide)
  | validated h _ _ => exact absurd (command.symm.trans h) (by decide)
  | aborted h => exact absurd (command.symm.trans h) (by decide)

end

/-! ## Rows of packets -/

/-- A packet with the flash and the end of the save that it meets. -/
structure Delivery where
  flash : BootFlash
  save : SaveOutcome
  packet : UpdatePacket

/-- One delivery. -/
def processOne (board : Board) (delivery : Delivery) (state : UpdateState) :
    UpdateStatus × UpdateState :=
  boot_update_session_process board delivery.flash delivery.save delivery.packet state

theorem processOne_step (board : Board) (delivery : Delivery) (state : UpdateState) :
    PacketStep board delivery.flash delivery.save delivery.packet state
      (processOne board delivery state).1 (processOne board delivery state).2 :=
  packetStep ..

/-- The statuses of a row of packets, and the state after it. -/
def processAll (board : Board) (deliveries : List Delivery) (state : UpdateState) :
    List UpdateStatus × UpdateState :=
  at_least_once.runAll (processOne board) deliveries state

end stm32_vibe.update_session
