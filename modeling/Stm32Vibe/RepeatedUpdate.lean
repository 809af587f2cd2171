-- The host repeats a packet whose acknowledgement was lost. Every packet of an
-- update leads the session to a state that the same packet keeps, so the
-- repetitions change nothing but the generation of the stored record.
import Stm32Vibe.FinalizeImage
import Stm32Vibe.UartUpdate

namespace stm32_vibe.repeated_update

open little_endian code_points boot_state boot_policy boot_state_store save_history app_image
  boot_flash update_protocol update_session uart_update at_least_once finalize_image

/-! ## The record that an update leaves -/

/-- A record without its generation and its CRC. -/
def unstamped (state : BootStateRecord) : BootStateRecord :=
  { state with generation := 0, record_crc32 := 0 }

@[simp] theorem unstamped_active_slot (state : BootStateRecord) :
    (unstamped state).active_slot = state.active_slot := rfl

@[simp] theorem unstamped_pending_slot (state : BootStateRecord) :
    (unstamped state).pending_slot = state.pending_slot := rfl

@[simp] theorem unstamped_pending_attempts (state : BootStateRecord) :
    (unstamped state).pending_attempts = state.pending_attempts := rfl

@[simp] theorem status_unstamped (state : BootStateRecord) (slot : UInt32) :
    status_for_slot (unstamped state) slot = status_for_slot state slot := rfl

theorem unstamped_update_crc (state : BootStateRecord) :
    unstamped (boot_state_update_crc state) = unstamped state := by
  obtain ⟨crc, h⟩ := update_crc_eq state
  rw [h]
  rfl

section
variable {slot : UInt32} (hs : slot_is_valid slot) (version image_crc32 : UInt32)
include hs

/-- The mark depends on the record without its stamp alone. -/
theorem unstamped_mark (state : BootStateRecord) :
    unstamped (boot_policy_mark_slot_pending state slot version image_crc32) =
      unstamped (boot_policy_mark_slot_pending (unstamped state) slot version image_crc32) := by
  rw [mark_slot_pending_eq state version image_crc32 hs,
    mark_slot_pending_eq (unstamped state) version image_crc32 hs, unstamped_update_crc,
    unstamped_update_crc]
  rcases hs with rfl | rfl <;> rfl

/-- A slot that is marked again is marked as before. -/
theorem unstamped_mark_mark (state : BootStateRecord) :
    unstamped (boot_policy_mark_slot_pending
        (unstamped (boot_policy_mark_slot_pending state slot version image_crc32)) slot version
        image_crc32) =
      unstamped (boot_policy_mark_slot_pending state slot version image_crc32) := by
  have hreserved : ∀ r : Vector UInt32 8,
      (((r.set BOOT_STATE_PENDING_VERSION_WORD version).set BOOT_STATE_PENDING_CRC32_WORD
          image_crc32).set BOOT_STATE_PENDING_VERSION_WORD version).set
          BOOT_STATE_PENDING_CRC32_WORD image_crc32 =
        (r.set BOOT_STATE_PENDING_VERSION_WORD version).set BOOT_STATE_PENDING_CRC32_WORD
          image_crc32 := by
    intro r
    apply Vector.ext
    intro i hi
    simp only [Vector.getElem_set, BOOT_STATE_PENDING_VERSION_WORD,
      BOOT_STATE_PENDING_CRC32_WORD]
    split_ifs <;> rfl
  rw [mark_slot_pending_eq _ version image_crc32 hs,
    mark_slot_pending_eq state version image_crc32 hs]
  simp only [unstamped_update_crc]
  rcases hs with rfl | rfl
  · simp [unstamped, set_status_for_slot, hreserved]
  · simp [unstamped, set_status_for_slot, hreserved]

end

/-! ## The stages of an update -/

/-- A delivery of a packet whose flash operations and whose save succeed. -/
structure Carries (board : Board) (delivery : Delivery) (packet : UpdatePacket) : Prop where
  packet : delivery.packet = packet
  lawful : LawfulFlash delivery.flash
  succeeds : SucceedingFlash board delivery.flash
  saved : delivery.save = .Completes

section
variable (board : Board) (before : BootUpdateSession) (copies : Copies) (binary : List UInt8)
  (image_crc32 session_id : UInt32)

/-- The slot that the update writes. -/
def targetSlot : UInt32 := boot_policy_inactive_slot (boot_state_store_load copies)

/-- The session with `k` blocks received. -/
def receivingSession (k : Nat) : BootUpdateSession :=
  { before.begun (beginPacket session_id binary image_crc32) (targetSlot copies) with
    received_image_size := (min (MAX_PAYLOAD * k) binary.length).toUInt32 }

/-- The session after the last block, complete. -/
def completeSession : BootUpdateSession :=
  { receivingSession before copies binary image_crc32 session_id (blockCount binary) with
    transfer_complete := true }

/-- The session after the validation. -/
def validSession (version : UInt32) : BootUpdateSession :=
  { completeSession before copies binary image_crc32 session_id with
    candidate_version := version
    candidate_crc32 := image_crc32
    candidate_valid := true }

/-- The session is known, the store is untouched, and the slot starts with the bytes. -/
structure Stage (session : BootUpdateSession) (bytes : List UInt8) (state : UpdateState) :
    Prop where
  session_eq : state.session = session
  copies_eq : state.copies = copies
  holds : Holds (state.slots.image (targetSlot copies)) bytes

/-- The stage after `k` blocks. -/
def Received (k : Nat) : UpdateState → Prop :=
  Stage copies (receivingSession before copies binary image_crc32 session_id k)
    (binary.take (MAX_PAYLOAD * k))

end

section
variable {board : Board} {before : BootUpdateSession} {copies : Copies} {binary : List UInt8}
  {image_crc32 session_id : UInt32} {delivery : Delivery}

theorem targetSlot_valid (copies : Copies) : slot_is_valid (targetSlot copies) :=
  inactive_slot_valid (load_inRange copies).active_slot

theorem block_offset {k : Nat} (hk : k < blockCount binary) : MAX_PAYLOAD * k < binary.length := by
  unfold blockCount MAX_PAYLOAD at *
  omega

theorem last_block (binary : List UInt8) :
    min (MAX_PAYLOAD * blockCount binary) binary.length = binary.length := by
  unfold blockCount MAX_PAYLOAD
  omega

theorem toNat_toUInt32 {n : Nat} (h : n < 2 ^ 32) : n.toUInt32.toNat = n :=
  UInt32.toNat_ofNat_of_lt' h

/-- The BEGIN leads from any session on the same store to an empty transfer. -/
theorem begin_leads (h0 : binary.length ≠ 0) (hfit : binary.length ≤ (APP_SLOT_SIZE board).toNat)
    (hc : Carries board delivery (beginPacket session_id binary image_crc32))
    {session : BootUpdateSession}
    (hsame : session.reset_requested = before.reset_requested) :
    Leads (processOne board) .Ok
      (fun state => state.session = session ∧ state.copies = copies)
      (Received before copies binary image_crc32 session_id 0)
      delivery := by
  rintro state ⟨rfl, rfl⟩
  have accepted := begin_accepted session_id binary image_crc32 h0 hfit
  have erased := hc.succeeds.erase state.slots (beginSlot state)
    (read_u32_le (beginPacket session_id binary image_crc32).payload 0)
    (targetSlot_valid state.copies) accepted.2.1 accepted.2.2
  unfold processOne
  rw [hc.packet, process_begin rfl accepted erased]
  refine ⟨rfl, ?_, rfl, holds_nil _⟩
  dsimp only
  simp only [receivingSession, BootUpdateSession.begun, hsame, beginSlot, targetSlot]
  rfl

/-! ### One block -/

section
variable (hfit : binary.length ≤ (APP_SLOT_SIZE board).toNat) {k : Nat}
  (hk : k < blockCount binary)
include hfit hk

theorem blockPacket_sequence :
    (blockPacket session_id binary (MAX_PAYLOAD * k)).sequence.toNat = MAX_PAYLOAD * k := by
  have hlt := (APP_SLOT_SIZE board).toNat_lt
  have hoffset := block_offset hk
  exact toNat_toUInt32 (by omega)

theorem blockPacket_aligned :
    (blockPacket session_id binary (MAX_PAYLOAD * k)).sequence &&& 3 = 0 := by
  have hmask : (3 : UInt32).toNat = 2 ^ 2 - 1 := rfl
  apply UInt32.toNat_inj.mp
  rw [UInt32.toNat_and, blockPacket_sequence hfit hk, hmask, Nat.and_two_pow_sub_one_eq_mod,
    UInt32.toNat_zero]
  unfold MAX_PAYLOAD
  omega

/-- The bytes received with the block. -/
theorem received_block : (MAX_PAYLOAD * k).toUInt32 +
    (blockPacket session_id binary (MAX_PAYLOAD * k)).payload_len.toUInt32 =
      (min (MAX_PAYLOAD * (k + 1)) binary.length).toUInt32 := by
  have hlt := (APP_SLOT_SIZE board).toNat_lt
  have hoffset := block_offset hk
  have hlen : (blockPacket session_id binary (MAX_PAYLOAD * k)).payload.length = _ :=
    length_block binary (MAX_PAYLOAD * k)
  apply UInt32.toNat_inj.mp
  rw [UInt32.toNat_add, toNat_payload_len, toNat_toUInt32 (by omega), toNat_toUInt32 (by omega),
    hlen]
  unfold MAX_PAYLOAD at *
  omega

/-- The block is the next one of a session that has received those before it. -/
theorem block_new : BlockNew (receivingSession before copies binary image_crc32 session_id k)
    (blockPacket session_id binary (MAX_PAYLOAD * k)) := by
  have hlt := (APP_SLOT_SIZE board).toNat_lt
  have hoffset := block_offset hk
  have hlen : (blockPacket session_id binary (MAX_PAYLOAD * k)).payload.length = _ :=
    length_block binary (MAX_PAYLOAD * k)
  have hsize : (receivingSession before copies binary image_crc32 session_id
      k).expected_image_size = binary.length.toUInt32 := begin_size session_id binary image_crc32
  have hreceived : (receivingSession before copies binary image_crc32 session_id
      k).received_image_size = (min (MAX_PAYLOAD * k) binary.length).toUInt32 := rfl
  refine ⟨?_, ?_, ?_⟩
  · rw [hlen]
    unfold MAX_PAYLOAD at *
    omega
  · rw [hreceived, Nat.min_eq_left (by omega)]
    rfl
  · rw [hsize, toNat_toUInt32 (by omega), blockPacket_sequence hfit hk, hlen]
    omega

/-- A block leads from the bytes before it to the bytes with it. -/
theorem block_leads
    (hc : Carries board delivery (blockPacket session_id binary (MAX_PAYLOAD * k))) :
    Leads (processOne board) .Ok
      (Received before copies binary image_crc32 session_id k)
      (Received before copies binary image_crc32 session_id (k + 1))
      delivery := by
  rintro state ⟨hsession, hcopies, hholds⟩
  have hoffset := block_offset hk
  have hlen := length_block binary (MAX_PAYLOAD * k)
  have hpacket : (blockPacket session_id binary (MAX_PAYLOAD * k)).payload =
    block binary (MAX_PAYLOAD * k) := rfl
  have hseq := @blockPacket_sequence _ _ session_id hfit _ hk
  have hreceived : state.session.received_image_size = (MAX_PAYLOAD * k).toUInt32 := by
    have hmin : min (MAX_PAYLOAD * k) binary.length = MAX_PAYLOAD * k :=
      Nat.min_eq_left (by omega)
    rw [hsession, receivingSession, hmin]
  have htarget : state.session.target_slot = targetSlot copies := by rw [hsession]; rfl
  have new : BlockNew state.session (blockPacket session_id binary (MAX_PAYLOAD * k)) := by
    rw [hsession]
    exact block_new hfit hk
  have hof : OfSession (blockPacket session_id binary (MAX_PAYLOAD * k)) state :=
    ofSession_of_eq hsession rfl rfl
  have written := hc.succeeds.write state.slots state.session.target_slot
    (blockPacket session_id binary (MAX_PAYLOAD * k)).sequence
    (blockPacket session_id binary (MAX_PAYLOAD * k)).payload
    (by rw [htarget]; exact targetSlot_valid copies) (blockPacket_aligned hfit hk)
    (by rw [hseq, hpacket]; omega)
  unfold processOne
  rw [hc.packet, process_block_new rfl hof new written]
  refine ⟨rfl, ?_, hcopies, ?_⟩
  · dsimp only
    rw [hreceived, received_block hfit hk, hsession]
    rfl
  · rw [← take_append_block]
    have hbefore : (binary.take (MAX_PAYLOAD * k)).length = MAX_PAYLOAD * k := by
      rw [List.length_take]
      omega
    apply Holds.append
    · refine hholds.congr fun i hi => ?_
      rw [← htarget]
      exact hc.lawful.write_before _ _ _ _ i (by rw [hseq]; omega)
    · intro j hj
      have hdata := hc.lawful.write_ok state.slots state.session.target_slot _ _ written j hj
      rw [hseq, htarget] at hdata
      rw [hbefore, htarget]
      exact hdata

/-- The block that was received last keeps the stage. -/
theorem block_keeps
    (hc : Carries board delivery (blockPacket session_id binary (MAX_PAYLOAD * k))) :
    Leads (processOne board) .Ok
      (Received before copies binary image_crc32 session_id (k + 1))
      (Received before copies binary image_crc32 session_id (k + 1))
      delivery := by
  intro state hstage
  obtain ⟨hsession, hcopies, hholds⟩ := hstage
  have hlt := (APP_SLOT_SIZE board).toNat_lt
  have hoffset := block_offset hk
  have hlen := length_block binary (MAX_PAYLOAD * k)
  have hpacket : (blockPacket session_id binary (MAX_PAYLOAD * k)).payload =
    block binary (MAX_PAYLOAD * k) := rfl
  have hseq := @blockPacket_sequence _ _ session_id hfit _ hk
  have htarget : state.session.target_slot = targetSlot copies := by rw [hsession]; rfl
  have hreceived : state.session.received_image_size.toNat =
      min (MAX_PAYLOAD * (k + 1)) binary.length := by
    rw [hsession]
    exact toNat_toUInt32 (by omega)
  have hexpected : state.session.expected_image_size.toNat = binary.length := by
    rw [hsession]
    show (read_u32_le (beginPacket session_id binary image_crc32).payload 0).toNat = _
    rw [begin_size]
    exact toNat_toUInt32 (by omega)
  have hof : OfSession (blockPacket session_id binary (MAX_PAYLOAD * k)) state :=
    ofSession_of_eq hsession rfl rfl
  have hstep := @process_block_again board delivery.flash delivery.save
    (blockPacket session_id binary (MAX_PAYLOAD * k)) state rfl hof
    (by rw [htarget]; exact targetSlot_valid copies)
    (by rw [hpacket, hlen]; unfold MAX_PAYLOAD at *; omega)
    (by rw [hseq, hpacket, hlen, hreceived]; unfold MAX_PAYLOAD at *; omega)
    (UInt32.le_iff_toNat_le.mpr (by omega))
    (by
      intro j hj
      rw [hpacket] at hj
      rw [htarget, hseq]
      apply hholds.getElem?
      rw [← take_append_block, List.getElem?_append_right (by rw [List.length_take]; omega),
        List.length_take, Nat.min_eq_left (by omega), Nat.add_sub_cancel_left]
      exact List.getElem?_eq_getElem hj)
  unfold processOne
  rw [hc.packet, hstep]
  exact ⟨rfl, hsession, hcopies, hholds⟩

end

theorem end_leads
    (hc : Carries board delivery (bare UPDATE_CMD_END session_id)) {complete : Bool} :
    Leads (processOne board) .Ok
      (Stage copies
        { receivingSession before copies binary image_crc32 session_id (blockCount binary) with
          transfer_complete := complete } binary)
      (Stage copies (completeSession before copies binary image_crc32 session_id) binary)
      delivery := by
  rintro state ⟨hsession, hcopies, hholds⟩
  have hof : OfSession (bare UPDATE_CMD_END session_id) state :=
    ofSession_of_eq hsession rfl rfl
  have hreceived : state.session.received_image_size = state.session.expected_image_size := by
    rw [hsession]
    show (min (MAX_PAYLOAD * blockCount binary) binary.length).toUInt32 =
      read_u32_le (beginPacket session_id binary image_crc32).payload 0
    rw [last_block, begin_size]
  unfold processOne
  rw [hc.packet, process_end rfl hof hreceived]
  refine ⟨rfl, ?_, hcopies, hholds⟩
  dsimp only
  rw [hsession]
  rfl

/-- The candidate of a complete transfer of a finished image is accepted. -/
theorem stage_accepted {image : List UInt8} {metadata : Metadata}
    (hfin : Finalized image binary metadata)
    (hfit : binary.length ≤ (APP_SLOT_SIZE board).toNat)
    (hvectors : vectorsAccepted board (imageOf binary) binary.length.toUInt32
      (slot_base board (targetSlot copies)) (slot_end board (targetSlot copies)))
    {state : UpdateState} (htarget : state.session.target_slot = targetSlot copies)
    (hcomplete : state.session.transfer_complete = true)
    (hsize : state.session.expected_image_size = binary.length.toUInt32)
    (hcrc : state.session.expected_image_crc32 = metadata.image_crc32)
    (hholds : Holds (state.slots.image (targetSlot copies)) binary) :
    CandidateAccepted board state := by
  obtain ⟨-, -, -, himage, hmcrc, -⟩ := finalized_manifest hfin hholds
  have hlen : metadata.image_size.toUInt32 = binary.length.toUInt32 := by
    rw [hfin.size, length_finalized hfin]
  have hsame : ∀ i < binary.length, imageOf binary i = state.slots.image (targetSlot copies) i := by
    intro i hi
    rw [imageOf_holds binary i hi, hholds i hi]
  have hroom := hfin.room
  rw [← length_finalized hfin] at hroom
  unfold MANIFEST_OFFSET MANIFEST_SIZE at hroom
  constructor
  case target => rw [htarget]; exact targetSlot_valid copies
  case complete => exact hcomplete
  case image => rw [htarget]; exact finalized_valid hfin hholds hfit
  case size => rw [htarget, himage, hlen, hsize]
  case crc => rw [htarget, hmcrc, hcrc]
  case vectors =>
    rw [htarget, himage, hlen]
    unfold vectorsAccepted at hvectors ⊢
    rwa [manifestOf_congr fun i hi => hsame i (by omega),
      readWord_congr fun k hk => hsame (0 + k) (by omega),
      readWord_congr fun k hk => hsame (4 + k) (by omega)] at hvectors

/-- A validation leads to the valid session, from the complete one and from itself. -/
theorem validate_leads {image : List UInt8} {metadata : Metadata}
    (hfin : Finalized image binary metadata)
    (hfit : binary.length ≤ (APP_SLOT_SIZE board).toNat)
    (hvectors : vectorsAccepted board (imageOf binary) binary.length.toUInt32
      (slot_base board (targetSlot copies)) (slot_end board (targetSlot copies)))
    (hc : Carries board delivery (bare UPDATE_CMD_VALIDATE session_id))
    {version crc : UInt32} {valid : Bool} :
    Leads (processOne board) .Ok
      (Stage copies
        { completeSession before copies binary metadata.image_crc32 session_id with
          candidate_version := version
          candidate_crc32 := crc
          candidate_valid := valid } binary)
      (Stage copies
        (validSession before copies binary metadata.image_crc32 session_id
          metadata.software_version.toNat.toUInt32) binary)
      delivery := by
  rintro state ⟨hsession, hcopies, hholds⟩
  have htarget : state.session.target_slot = targetSlot copies := by rw [hsession]; rfl
  have hof : OfSession (bare UPDATE_CMD_VALIDATE session_id) state :=
    ofSession_of_eq hsession rfl rfl
  have accepted : CandidateAccepted board state := by
    refine stage_accepted hfin hfit hvectors htarget ?_ ?_ ?_ hholds
    · rw [hsession]; rfl
    · rw [hsession]; exact begin_size session_id binary _
    · rw [hsession]; exact begin_crc32 session_id binary _
  obtain ⟨-, -, -, -, hmcrc, hmversion⟩ := finalized_manifest hfin hholds
  unfold processOne
  rw [hc.packet, process_validate rfl hof accepted]
  refine ⟨rfl, ?_, hcopies, hholds⟩
  dsimp only
  rw [htarget, hmcrc, hmversion, hsession]
  rfl

end

/-! ## The activations -/

section
variable {board : Board} {before : BootUpdateSession} {copies : Copies} {binary : List UInt8}
  {image_crc32 session_id version : UInt32}

/-- The state after `n` activations. -/
structure Activated (before : BootUpdateSession) (copies : Copies) (binary : List UInt8)
    (image_crc32 session_id version : UInt32) (n : Nat) (state : UpdateState) : Prop where
  session_eq : state.session =
    { validSession before copies binary image_crc32 session_id version with
      reset_requested := true }
  record : unstamped (boot_state_store_load state.copies) =
    unstamped (boot_policy_mark_slot_pending (boot_state_store_load copies) (targetSlot copies)
      version image_crc32)
  generation : generationOf (boot_state_store_load state.copies) =
    generationOf (boot_state_store_load copies) + n
  holds : Holds (state.slots.image (targetSlot copies)) binary

/-- One activation, in a session that is valid but for its request to reset. -/
theorem activate_saves {delivery : Delivery} {state : UpdateState}
    (hc : Carries board delivery (bare UPDATE_CMD_ACTIVATE session_id))
    (hsession : { state.session with reset_requested := true } =
      { validSession before copies binary image_crc32 session_id version with
        reset_requested := true }) :
    let record := boot_policy_mark_slot_pending (boot_state_store_load state.copies)
      (targetSlot copies) version image_crc32
    RecordStep (boot_state_store_load state.copies) record ∧
      processOne board delivery state = (.Ok, { state with
        session := { validSession before copies binary image_crc32 session_id version with
          reset_requested := true }
        copies := (boot_state_store_save_next state.copies record .Completes).1
        saves := state.saves ++ [(record, .Completes)] }) := by
  have hof : OfSession (bare UPDATE_CMD_ACTIVATE session_id) state :=
    ⟨congrArg BootUpdateSession.session_active hsession,
      (congrArg BootUpdateSession.session_id hsession).symm⟩
  have hvalid : state.session.candidate_valid = true :=
    congrArg BootUpdateSession.candidate_valid hsession
  have hmark : activated state =
      boot_policy_mark_slot_pending (boot_state_store_load state.copies) (targetSlot copies)
        version image_crc32 := by
    have htarget : state.session.target_slot = targetSlot copies :=
      congrArg BootUpdateSession.target_slot hsession
    have hversion : state.session.candidate_version = version :=
      congrArg BootUpdateSession.candidate_version hsession
    have hcrc : state.session.candidate_crc32 = image_crc32 :=
      congrArg BootUpdateSession.candidate_crc32 hsession
    unfold activated
    rw [htarget, hversion, hcrc]
  refine ⟨.activate _ _ _ (targetSlot_valid copies), ?_⟩
  unfold processOne
  rw [hc.packet, hc.saved, process_activate rfl hof hvalid, hmark, hsession]

theorem activate_step {delivery : Delivery} {state : UpdateState}
    (hc : Carries board delivery (bare UPDATE_CMD_ACTIVATE session_id))
    (hsession : { state.session with reset_requested := true } =
      { validSession before copies binary image_crc32 session_id version with
        reset_requested := true })
    (hroom : generationOf (boot_state_store_load state.copies) + 1 < 2 ^ 32)
    (hholds : Holds (state.slots.image (targetSlot copies)) binary) :
    let next := (processOne board delivery state).2
    (processOne board delivery state).1 = .Ok ∧
      next.session =
        { validSession before copies binary image_crc32 session_id version with
          reset_requested := true } ∧
      boot_state_store_load next.copies =
        boot_policy_mark_slot_pending (boot_state_store_load state.copies) (targetSlot copies)
          version image_crc32 ∧
      generationOf (boot_state_store_load next.copies) =
        generationOf (boot_state_store_load state.copies) + 1 ∧
      Holds (next.slots.image (targetSlot copies)) binary := by
  obtain ⟨step, hout⟩ := activate_saves hc hsession
  have hload := load_completed step hroom
  have hgen := (recordStep_next step hroom).generation
  intro next
  unfold next
  rw [hout]
  refine ⟨rfl, rfl, hload, ?_, hholds⟩
  dsimp only
  rw [hload, hgen]

theorem activate_first {delivery : Delivery} {state : UpdateState}
    (hc : Carries board delivery (bare UPDATE_CMD_ACTIVATE session_id))
    (h : Stage copies (validSession before copies binary image_crc32 session_id version) binary
      state)
    (hroom : generationOf (boot_state_store_load copies) + 1 < 2 ^ 32) :
    (processOne board delivery state).1 = .Ok ∧
      Activated before copies binary image_crc32 session_id version 1
        (processOne board delivery state).2 := by
  have hcopies := h.copies_eq
  obtain ⟨hok, hsession, hload, hgen, hholds⟩ := activate_step hc (by rw [h.session_eq])
    (by rw [hcopies]; exact hroom) h.holds
  exact ⟨hok, hsession, by rw [hload, hcopies], by rw [hgen, hcopies], hholds⟩

theorem activate_again {delivery : Delivery} {state : UpdateState} {n : Nat}
    (hc : Carries board delivery (bare UPDATE_CMD_ACTIVATE session_id))
    (h : Activated before copies binary image_crc32 session_id version n state)
    (hroom : generationOf (boot_state_store_load copies) + n + 1 < 2 ^ 32) :
    (processOne board delivery state).1 = .Ok ∧
      Activated before copies binary image_crc32 session_id version (n + 1)
        (processOne board delivery state).2 := by
  obtain ⟨hok, hsession, hload, hgen, hholds⟩ := activate_step hc (by rw [h.session_eq])
    (by rw [h.generation]; exact hroom) h.holds
  refine ⟨hok, hsession, ?_, by rw [hgen, h.generation]; rfl, hholds⟩
  have hs := targetSlot_valid copies
  rw [hload, unstamped_mark hs, h.record, unstamped_mark_mark hs]

/-- A row of activations after the first. -/
theorem activations_run {deliveries : List Delivery} {state : UpdateState} {n : Nat}
    (hc : ∀ d ∈ deliveries, Carries board d (bare UPDATE_CMD_ACTIVATE session_id))
    (h : Activated before copies binary image_crc32 session_id version n state)
    (hroom : generationOf (boot_state_store_load copies) + n + deliveries.length < 2 ^ 32) :
    RunsTo (processOne board) .Ok deliveries state
      (Activated before copies binary image_crc32 session_id version (n + deliveries.length)) := by
  induction deliveries generalizing n state with
  | nil => exact .nil h
  | cons delivery rest ih =>
    rw [List.length_cons] at hroom ⊢
    obtain ⟨hok, hnext⟩ := activate_again (hc delivery (List.mem_cons_self ..)) h (by omega)
    have hrest := ih (fun d hd => hc d (List.mem_cons_of_mem _ hd)) hnext (by omega)
    rw [show n + 1 + rest.length = n + (rest.length + 1) by omega] at hrest
    exact .cons hok hrest

end

/-! ## The whole update -/

/-- The deliveries that carry an ACTIVATE. -/
def activations (deliveries : List Delivery) : Nat :=
  deliveries.countP fun delivery => delivery.packet.command = UPDATE_CMD_ACTIVATE

section
variable {board : Board} {binary : List UInt8} {session_id : UInt32}

/-- Up to the last block, the slot starts with the bytes that were sent. -/
theorem blocks_run (hfit : binary.length ≤ (APP_SLOT_SIZE board).toNat)
    {before : BootUpdateSession} {copies : Copies} {image_crc32 : UInt32}
    {deliveries : List Delivery} {state : UpdateState}
    (h : Repeated (Carries board) (blockPackets session_id binary) deliveries)
    (hs : Received before copies binary image_crc32 session_id 0 state) :
    RunsTo (processOne board) .Ok deliveries state
      (Received before copies binary image_crc32 session_id (blockCount binary)) := by
  have hstage : ∀ k message, (blockPackets session_id binary)[k]? = some message →
      ∀ delivery, Carries board delivery message →
        Leads (processOne board) .Ok (Received before copies binary image_crc32 session_id k)
            (Received before copies binary image_crc32 session_id (k + 1)) delivery ∧
          Leads (processOne board) .Ok
            (Received before copies binary image_crc32 session_id (k + 1))
            (Received before copies binary image_crc32 session_id (k + 1)) delivery := by
    intro k message hmessage delivery hc
    unfold blockPackets at hmessage
    rw [List.getElem?_map] at hmessage
    by_cases hk : k < blockCount binary
    · rw [List.getElem?_range hk, Option.map_some, Option.some.injEq] at hmessage
      rw [← hmessage] at hc
      exact ⟨block_leads hfit hk hc, block_keeps hfit hk hc⟩
    · rw [List.getElem?_eq_none (by simpa using hk)] at hmessage
      cases hmessage
  have hrun := h.runsTo (Received before copies binary image_crc32 session_id) hstage hs
  rwa [show (blockPackets session_id binary).length = blockCount binary by
    simp [blockPackets]] at hrun

/-- Up to the validation, the store is untouched. -/
theorem transfer_run {image : List UInt8} {metadata : Metadata}
    (hfin : Finalized image binary metadata) (hfit : binary.length ≤ (APP_SLOT_SIZE board).toNat)
    {state : UpdateState}
    (hvectors : vectorsAccepted board (imageOf binary) binary.length.toUInt32
      (slot_base board (targetSlot state.copies)) (slot_end board (targetSlot state.copies)))
    {deliveries : List Delivery}
    (h : Repeated (Carries board) (run_update binary metadata.image_crc32 session_id false)
      deliveries) :
    RunsTo (processOne board) .Ok deliveries state
      (Stage state.copies
        (validSession state.session state.copies binary metadata.image_crc32 session_id
          metadata.software_version.toNat.toUInt32) binary) := by
  have h0 : binary.length ≠ 0 := by
    have hroom := hfin.room
    rw [← length_finalized hfin] at hroom
    unfold MANIFEST_OFFSET at hroom
    omega
  have hfull : binary.take (MAX_PAYLOAD * blockCount binary) = binary := by
    rw [List.take_eq_self_iff]
    have := last_block binary
    omega
  unfold run_update at h
  rw [if_neg (by decide), List.append_nil] at h
  obtain ⟨first, last, rfl, hfirst, hlast⟩ := h.append_inv
  obtain ⟨begins, blocks, rfl, hbegins, hblocks⟩ := hfirst.append_inv
  obtain ⟨ends, validates, rfl, hends, hvalidates⟩ :=
    @Repeated.append_inv _ _ _ [bare UPDATE_CMD_END session_id]
      [bare UPDATE_CMD_VALIDATE session_id] _ hlast
  have hbegin : RunsTo (processOne board) .Ok begins state
      (Received state.session state.copies binary metadata.image_crc32 session_id 0) :=
    hbegins.single_runsTo (fun _ hc => begin_leads h0 hfit hc rfl)
      (fun _ hc s hs => begin_leads h0 hfit hc (by rw [hs.session_eq]; rfl) s
        ⟨rfl, hs.copies_eq⟩) ⟨rfl, rfl⟩
  refine .append (.append hbegin fun s hs => blocks_run hfit hblocks hs) fun s hs => ?_
  unfold Received at hs
  rw [hfull] at hs
  refine .append (hends.single_runsTo (fun _ hc => end_leads hc) (fun _ hc => end_leads hc) hs)
    fun s hs => ?_
  exact hvalidates.single_runsTo (fun _ hc => validate_leads hfin hfit hvectors hc)
    (fun _ hc => validate_leads hfin hfit hvectors hc) hs

end

section
variable {board : Board} {image binary manifest : List UInt8} {metadata : Metadata}
  {session_id : UInt32} {state : UpdateState}

theorem length_le_activations {sent more : List Delivery}
    (h : ∀ d ∈ more, Carries board d (bare UPDATE_CMD_ACTIVATE session_id)) :
    more.length ≤ activations (sent ++ more) := by
  have hall : more.countP (fun d => d.packet.command = UPDATE_CMD_ACTIVATE) = more.length := by
    rw [List.countP_eq_length]
    intro d hd
    rw [(h d hd).packet]
    rfl
  unfold activations
  rw [List.countP_append, hall]
  omega

/-- The whole update, with every packet once or more. -/
theorem update_run (hfin : Finalized image binary metadata)
    (hfit : binary.length ≤ (APP_SLOT_SIZE board).toNat)
    (hvectors : vectorsAccepted board (imageOf binary) binary.length.toUInt32
      (slot_base board (targetSlot state.copies)) (slot_end board (targetSlot state.copies)))
    {deliveries : List Delivery}
    (h : Repeated (Carries board) (run_update binary metadata.image_crc32 session_id true)
      deliveries)
    (hroom : generationOf (boot_state_store_load state.copies) + activations deliveries < 2 ^ 32) :
    RunsTo (processOne board) .Ok deliveries state fun last =>
      ∃ n, Activated state.session state.copies binary metadata.image_crc32 session_id
        metadata.software_version.toNat.toUInt32 n last := by
  have hsplit : run_update binary metadata.image_crc32 session_id true =
      run_update binary metadata.image_crc32 session_id false ++
        [bare UPDATE_CMD_ACTIVATE session_id] := by
    simp [run_update]
  rw [hsplit] at h
  obtain ⟨transfer, last, rfl, htransfer, hlast⟩ := h.append_inv
  obtain ⟨first, again, rfl, hfirst, hagain⟩ := hlast.singleton_inv
  have hcount := @length_le_activations board session_id transfer (first :: again) (by
    intro d hd
    rcases List.mem_cons.mp hd with rfl | hd
    · exact hfirst
    · exact hagain d hd)
  rw [List.length_cons] at hcount
  refine .append (transfer_run hfin hfit hvectors htransfer) fun s hs => ?_
  obtain ⟨hok, hnext⟩ := activate_first hfirst hs (by omega)
  obtain ⟨hreplies, hactivated⟩ := activations_run hagain hnext (by omega)
  exact .cons hok ⟨hreplies, _, hactivated⟩

/-- An update whose packets arrive once or more, and the same update with each
packet once: all are answered with OK, and they end with the same session, the
same image and the same record, but for its generation and its CRC. -/
theorem repetitions_change_nothing {version : Int} {app_name board_name : Text}
    {relocation : Option Relocation}
    (hfinalize : finalize_bytes image version app_name board_name relocation =
      .ok (binary, manifest, metadata))
    (hfit : binary.length ≤ (APP_SLOT_SIZE board).toNat)
    (hvectors : vectorsAccepted board (imageOf binary) binary.length.toUInt32
      (slot_base board (targetSlot state.copies)) (slot_end board (targetSlot state.copies)))
    {once repeated : List Delivery}
    (honce : List.Forall₂ (Carries board) once
      (run_update binary metadata.image_crc32 session_id true))
    (hrepeated : Repeated (Carries board)
      (run_update binary metadata.image_crc32 session_id true) repeated)
    (hroom : generationOf (boot_state_store_load state.copies) + activations repeated < 2 ^ 32) :
    let single := processAll board once state
    let last := processAll board repeated state
    (∀ status ∈ single.1, status = .Ok) ∧ (∀ status ∈ last.1, status = .Ok) ∧
      last.2.session = single.2.session ∧
      Holds (single.2.slots.image (targetSlot state.copies)) binary ∧
      Holds (last.2.slots.image (targetSlot state.copies)) binary ∧
      unstamped (boot_state_store_load last.2.copies) =
        unstamped (boot_state_store_load single.2.copies) := by
  have hfin := finalize_bytes_ok hfinalize
  have hfewer : activations once ≤ activations repeated :=
    hrepeated.countP_le honce (fun d => d.packet.command = UPDATE_CMD_ACTIVATE)
      (fun packet => packet.command = UPDATE_CMD_ACTIVATE) fun d packet hc => by rw [hc.packet]
  obtain ⟨hok, n, hn⟩ := update_run hfin hfit hvectors (.once honce) (by omega)
  obtain ⟨hok', m, hm⟩ := update_run hfin hfit hvectors hrepeated hroom
  refine ⟨hok, hok', ?_, hn.holds, hm.holds, ?_⟩
  · exact hm.session_eq.trans hn.session_eq.symm
  · exact hm.record.trans hn.record.symm

end

/-! ## A small update -/

/-- A packet that meets the driver of a board without faults. -/
def plain (board : Board) (packet : UpdatePacket) : Delivery where
  flash := driver board noFault
  save := .Completes
  packet := packet

theorem plain_carries (board : Board) (packet : UpdatePacket) :
    Carries board (plain board packet) packet :=
  ⟨rfl, driver_lawful board noFault, driver_succeeds board, rfl⟩

theorem plain_lawful (board : Board) (packets : List UpdatePacket) :
    ∀ delivery ∈ packets.map (plain board), LawfulFlash delivery.flash := by
  intro delivery hmem
  obtain ⟨packet, -, rfl⟩ := List.mem_map.mp hmem
  exact driver_lawful board noFault

theorem plain_once (board : Board) (packets : List UpdatePacket) :
    List.Forall₂ (Carries board) (packets.map (plain board)) packets := by
  induction packets with
  | nil => exact .nil
  | cons packet packets ih => exact .cons (plain_carries board packet) ih

theorem plain_twice (board : Board) (packets : List UpdatePacket) :
    Repeated (Carries board) packets
      (packets.flatMap fun packet => [plain board packet, plain board packet]) := by
  induction packets with
  | nil => exact .nil
  | cons packet packets ih =>
    refine @Repeated.cons _ _ _ _ _ _ [plain board packet] _ (plain_carries board packet) ?_ ih
    intro d hd
    rw [List.mem_singleton.mp hd]
    exact plain_carries board packet

def erasedSlots : Slots where
  a := imageOf []
  b := imageOf []

/-- A session after a reset, with nothing stored and both slots erased. -/
def freshState : UpdateState where
  session := boot_update_session_init
  copies := erasedCopies
  slots := erasedSlots
  saves := []
  flash_calls := []

theorem freshState_generation : generationOf (boot_state_store_load freshState.copies) = 0 := by
  have hcopies : freshState.copies = erasedCopies := rfl
  rw [hcopies]
  exact provisioned_generation .erased

theorem small_generation : generationOf (boot_state_store_load freshState.copies) + 1 < 2 ^ 32 := by
  rw [freshState_generation]
  decide

theorem activations_twice (board : Board) (packets : List UpdatePacket) :
    activations (packets.flatMap fun packet => [plain board packet, plain board packet]) ≤
      2 * packets.length := by
  refine List.countP_le_length.trans ?_
  rw [List.length_flatMap]
  simp only [List.length_cons, List.length_nil, List.map_const', List.sum_replicate_nat]
  omega

/-- A binary of the size of the small one has five blocks. -/
theorem small_room {binary : List UInt8} (hlen : binary.length = 0x240) (image_crc32 : UInt32) :
    generationOf (boot_state_store_load freshState.copies) +
        activations ((run_update binary image_crc32 7 true).flatMap fun packet =>
          [plain .F446 packet, plain .F446 packet]) < 2 ^ 32 := by
  have hcount : blockCount binary = 5 := by
    unfold blockCount MAX_PAYLOAD
    rw [hlen]
  have hmany := activations_twice .F446 (run_update binary image_crc32 7 true)
  have hfew := length_run_update binary image_crc32 7 true
  rw [freshState_generation]
  omega

theorem small_fits (third : UInt32) {vector_words : Nat} (hw : vector_words < 2 ^ 32) :
    (smallBinary third vector_words).length ≤ (APP_SLOT_SIZE .F446).toNat := by
  rw [length_smallBinary third hw]
  decide

/-- The vectors of the small image fit any slot. -/
theorem small_vectors_target (third : UInt32) {vector_words : Nat} (hw : vector_words < 2 ^ 32)
    (hr : 2 ≤ vector_words ∧ vector_words ≤ 128) (slot : UInt32) :
    vectorsAccepted .F446 (imageOf (smallBinary third vector_words))
      (smallBinary third vector_words).length.toUInt32 (slot_base .F446 slot)
      (slot_end .F446 slot) := by
  have hsize : (0x240 : Nat).toUInt32 = 0x240 := rfl
  rw [length_smallBinary third hw, hsize]
  exact small_vectorsAccepted (imageOf_holds _) hw hr _ _ _

/-- The small image, with every packet sent twice, on a fresh F446. -/
theorem repetitions_change_nothing_small : ∃ manifest metadata,
    finalize_bytes (smallImage 0) 1 (ofString "app") (ofString "board")
        (some ⟨(2 : Nat), 0, 0, 0⟩) =
      .ok (smallBinary 0 2, manifest, metadata) ∧
    let packets := run_update (smallBinary 0 2) metadata.image_crc32 7 true
    let single := processAll .F446 (packets.map (plain .F446)) freshState
    let last := processAll .F446
      (packets.flatMap fun packet => [plain .F446 packet, plain .F446 packet]) freshState
    (∀ status ∈ single.1, status = .Ok) ∧ (∀ status ∈ last.1, status = .Ok) ∧
      last.2.session = single.2.session ∧
      Holds (single.2.slots.image (targetSlot freshState.copies)) (smallBinary 0 2) ∧
      Holds (last.2.slots.image (targetSlot freshState.copies)) (smallBinary 0 2) ∧
      unstamped (boot_state_store_load last.2.copies) =
        unstamped (boot_state_store_load single.2.copies) := by
  obtain ⟨manifest, metadata, hok, -⟩ := @smallBinary_finalized 0 2 (by decide)
  exact ⟨manifest, metadata, hok, repetitions_change_nothing hok (small_fits 0 (by decide))
    (small_vectors_target 0 (by decide) (by decide) _) (plain_once _ _) (plain_twice _ _)
    (small_room (length_smallBinary 0 (by decide)) _)⟩

end stm32_vibe.repeated_update
