-- The verdict of a validation is kept until the slot is activated. It stays true
-- for as long as no erase that fails changes the bytes of the candidate, and an
-- activation rests on it alone.
import Stm32Vibe.TransferLaws

namespace stm32_vibe.candidate_laws

open little_endian boot_state boot_policy boot_state_store app_image boot_flash update_protocol
  update_session at_least_once finalize_image uart_update repeated_update transfer_laws

/-! ## Rows of packets, from the end -/

theorem deliverAll_snoc (board : Board) (copies : Copies) (slots : Slots)
    (sent : List Delivery) (delivery : Delivery) :
    deliverAll board copies slots (sent ++ [delivery]) =
      deliver board (deliverAll board copies slots sent) delivery := by
  unfold deliverAll
  rw [List.foldl_append, List.foldl_cons, List.foldl_nil]

/-- Every delivery of the row meets the condition, at the state that it meets. -/
def AtEvery (board : Board) (copies : Copies) (slots : Slots) (deliveries : List Delivery)
    (condition : UpdateState → Delivery → Prop) : Prop :=
  ∀ sent delivery, sent ++ [delivery] <+: deliveries →
    condition (deliverAll board copies slots sent).1 delivery

theorem AtEvery.init {board : Board} {copies : Copies} {slots : Slots} {sent : List Delivery}
    {delivery : Delivery} {condition : UpdateState → Delivery → Prop}
    (h : AtEvery board copies slots (sent ++ [delivery]) condition) :
    AtEvery board copies slots sent condition := by
  intro before d hsent
  exact h before d (hsent.trans (List.prefix_append _ _))

/-! ## A candidate that is still the accepted one -/

/-- The image of the target slot is the one that the validation accepted. -/
structure CandidateGood (board : Board) (state : UpdateState) : Prop where
  accepted : CandidateAccepted board state
  version : state.session.candidate_version =
    (manifestOf (state.slots.image state.session.target_slot)).software_version
  image_crc32 : state.session.candidate_crc32 =
    (manifestOf (state.slots.image state.session.target_slot)).image_crc32

/-- A BEGIN whose erase fails leaves the bytes of a valid candidate. -/
def SparesCandidate (board : Board) (state : UpdateState) (delivery : Delivery) : Prop :=
  let erase := delivery.flash.erase_slot state.slots (beginSlot state)
    (read_u32_le delivery.packet.payload 0)
  state.session.candidate_valid = true → delivery.packet.command = UPDATE_CMD_BEGIN →
    BeginAccepted board delivery.packet → beginSlot state = state.session.target_slot →
    erase.1 ≠ .Ok →
    ∀ i < state.session.expected_image_size.toNat,
      state.slots.image state.session.target_slot i = erase.2.image state.session.target_slot i

section
variable {board : Board} {state : UpdateState}

/-- The bytes of the image decide the verdict. -/
theorem CandidateGood.congr (h : CandidateGood board state) {slots : Slots}
    {flash_calls : List FlashCall}
    (hsame : ∀ i < state.session.expected_image_size.toNat,
      state.slots.image state.session.target_slot i = slots.image state.session.target_slot i) :
    CandidateGood board { state with slots, flash_calls } := by
  obtain ⟨⟨target, complete, image, size, crc, vectors⟩, version, image_crc32⟩ := h
  have hbytes : ∀ i < (manifestOf (state.slots.image state.session.target_slot)).image_size.toNat,
      state.slots.image state.session.target_slot i =
        slots.image state.session.target_slot i := by
    rw [size]
    exact hsame
  have hmin := image_size_ge image
  have hmanifest : manifestOf (state.slots.image state.session.target_slot) =
      manifestOf (slots.image state.session.target_slot) :=
    manifestOf_congr fun i hi => hbytes i (by omega)
  have hresult := app_image_validate_congr image hbytes
  unfold vectorsAccepted at vectors
  rw [readWord_congr fun k hk => hbytes (0 + k) (by omega),
    readWord_congr fun k hk => hbytes (4 + k) (by omega), hmanifest] at vectors
  rw [← hresult] at image
  rw [hmanifest] at size crc version image_crc32
  exact ⟨⟨target, complete, image, size, crc, vectors⟩, version, image_crc32⟩

end

/-! ## Every packet keeps the verdict true -/

section
variable {board : Board} {flash : BootFlash} {save : SaveOutcome} {packet : UpdatePacket}
  {state next : UpdateState} {status : UpdateStatus} {transfer : Transfer}

/-- A transfer that is complete takes no new block. -/
theorem no_new_block (htransfer : TransferGood board state transfer)
    (hcomplete : state.session.transfer_complete = true) : ¬ BlockNew state.session packet := by
  intro new
  have hfull := htransfer.complete hcomplete
  have hnonempty := new.nonempty
  have hroom := new.room
  rw [new.sequence, hfull] at hroom
  omega

theorem candidateGood_step (hflash : LawfulFlash flash)
    (htransfer : state.session.session_active = true → TransferGood board state transfer)
    (h : state.session.candidate_valid = true → CandidateGood board state)
    (hspares : SparesCandidate board state ⟨flash, save, packet⟩)
    (step : PacketStep board flash save packet state status next)
    (hvalid : next.session.candidate_valid = true) : CandidateGood board next := by
  cases step with
  | idle status quiet => exact h hvalid
  | begin_failed command accepted failed =>
    have hgood := h hvalid
    apply hgood.congr
    intro i hi
    by_cases hslot : beginSlot state = state.session.target_slot
    · exact hspares hvalid command accepted hslot failed i hi
    · rw [hflash.erase_other _ _ _ _ hgood.accepted.target (Ne.symm hslot)]
  | begun command accepted erased => cases hvalid
  | block_failed command active new failed =>
    exact absurd new (no_new_block (htransfer active) (h hvalid).accepted.complete)
  | block command active new written =>
    exact absurd new (no_new_block (htransfer active) (h hvalid).accepted.complete)
  | ended command active received =>
    obtain ⟨accepted, version, image_crc32⟩ := h hvalid
    exact ⟨{ accepted with complete := rfl }, version, image_crc32⟩
  | validated command active accepted => exact ⟨{ accepted with }, rfl, rfl⟩
  | activate_failed command active valid incomplete =>
    obtain ⟨accepted, version, image_crc32⟩ := h hvalid
    exact ⟨{ accepted with }, version, image_crc32⟩
  | activated command active valid completes =>
    obtain ⟨accepted, version, image_crc32⟩ := h hvalid
    exact ⟨{ accepted with }, version, image_crc32⟩
  | aborted command => cases hvalid

end

/-- After a row of packets that spares its candidates, a valid candidate is the
image that stands in the slot. -/
theorem candidateGood_run {board : Board} {copies : Copies} {slots : Slots}
    {deliveries : List Delivery} (hflash : ∀ delivery ∈ deliveries, LawfulFlash delivery.flash)
    (hspares : AtEvery board copies slots deliveries (SparesCandidate board)) :
    ((deliverAll board copies slots deliveries).1.session.session_active = true →
        TransferGood board (deliverAll board copies slots deliveries).1
          (deliverAll board copies slots deliveries).2) ∧
      ((deliverAll board copies slots deliveries).1.session.candidate_valid = true →
        CandidateGood board (deliverAll board copies slots deliveries).1) := by
  induction deliveries using List.reverseRecOn with
  | nil => exact ⟨nofun, nofun⟩
  | append_singleton sent delivery ih =>
    obtain ⟨htransfer, hgood⟩ := ih
      (fun d hd => hflash d (List.mem_append_left _ hd)) hspares.init
    have hlawful := hflash delivery (List.mem_append_right _ (List.mem_singleton_self _))
    have hstep := packetStep board delivery.flash delivery.save delivery.packet
      (deliverAll board copies slots sent).1
    rw [deliverAll_snoc]
    refine ⟨?_, ?_⟩
    · intro hactive
      exact transferGood_step hlawful htransfer hstep hactive
    · intro hvalid
      exact candidateGood_step hlawful htransfer hgood
        (hspares sent delivery (List.prefix_refl _)) hstep hvalid

/-! ## The law of an activation -/

/-- What an ACTIVATE that returns OK has in the slot and leaves in the record. -/
structure ActivatesValid (board : Board) (state next : UpdateState) (transfer : Transfer) :
    Prop where
  image : (app_image_validate (state.slots.image state.session.target_slot)
    (APP_SLOT_SIZE board)).status = .Valid
  size : (manifestOf (state.slots.image state.session.target_slot)).image_size =
    transfer.announced
  vectors : vectorsAccepted board (state.slots.image state.session.target_slot)
    (manifestOf (state.slots.image state.session.target_slot)).image_size
    (slot_base board state.session.target_slot) (slot_end board state.session.target_slot)
  slots : next.slots = state.slots
  record : ∃ record, next.saves = state.saves ++ [(record, .Completes)] ∧
    next.copies = (boot_state_store_save_next state.copies record .Completes).1 ∧
    record.pending_slot = state.session.target_slot ∧
    record.reserved.get BOOT_STATE_PENDING_VERSION_WORD =
      (manifestOf (state.slots.image state.session.target_slot)).software_version ∧
    record.reserved.get BOOT_STATE_PENDING_CRC32_WORD =
      (manifestOf (state.slots.image state.session.target_slot)).image_crc32

/-- The record of an activation notes the version and the CRC of the candidate. -/
theorem activated_metadata {state : UpdateState} (h : slot_is_valid state.session.target_slot) :
    (activated state).reserved.get BOOT_STATE_PENDING_VERSION_WORD =
        state.session.candidate_version ∧
      (activated state).reserved.get BOOT_STATE_PENDING_CRC32_WORD =
        state.session.candidate_crc32 := by
  unfold activated
  simp [mark_slot_pending_reserved _ _ _ h, Vector.get_eq_getElem, BOOT_STATE_PENDING_VERSION_WORD,
    BOOT_STATE_PENDING_CRC32_WORD]

/-- In a row of packets whose failing erases spare the candidate, every ACTIVATE
that returns OK activates a valid image and notes its version and its CRC. -/
theorem activates_valid (board : Board) (copies : Copies) (slots : Slots)
    (deliveries : List Delivery) (hflash : ∀ delivery ∈ deliveries, LawfulFlash delivery.flash)
    (hspares : AtEvery board copies slots deliveries (SparesCandidate board))
    (flash : BootFlash) (save : SaveOutcome) (packet : UpdatePacket)
    (command : packet.command = UPDATE_CMD_ACTIVATE) :
    let state := (deliverAll board copies slots deliveries).1
    let transfer := (deliverAll board copies slots deliveries).2
    (boot_update_session_process board flash save packet state).1 = .Ok →
      ActivatesValid board state (boot_update_session_process board flash save packet state).2
        transfer := by
  intro state transfer hok
  obtain ⟨htransfer, hcandidate⟩ := candidateGood_run hflash hspares
  obtain ⟨active, valid, hnext⟩ := activate_ok command hok
  obtain ⟨accepted, version, image_crc32⟩ := hcandidate valid
  rw [hnext]
  constructor
  case image => exact accepted.image
  case size => rw [accepted.size, (htransfer active).announced]
  case vectors => exact accepted.vectors
  case slots => rfl
  case record =>
    obtain ⟨hversion, hcrc⟩ := activated_metadata accepted.target
    exact ⟨activated state, rfl, rfl, mark_slot_pending_pending_slot _ _ _ accepted.target,
      hversion.trans version, hcrc.trans image_crc32⟩

/-! ## The small image -/

/-- A flash that succeeds has no failing erase. -/
theorem succeeding_spares {board : Board} {state : UpdateState} {delivery : Delivery}
    (h : SucceedingFlash board delivery.flash) : SparesCandidate board state delivery := by
  intro hvalid command accepted hslot failed
  exact absurd (h.erase _ _ _ (beginSlot_valid state) accepted.2.1 accepted.2.2) failed

/-- The small image is activated after its download. -/
theorem activates_valid_small : ∃ image_crc32,
    let sent := smallDownload image_crc32
    let state := (deliverAll .F446 erasedCopies erasedSlots sent).1
    let result := boot_update_session_process .F446 (driver .F446 noFault) .Completes
      (bare UPDATE_CMD_ACTIVATE 7) state
    result.1 = .Ok ∧ ActivatesValid .F446 state result.2
      (deliverAll .F446 erasedCopies erasedSlots sent).2 := by
  obtain ⟨metadata, hok, hstage⟩ := small_download
  refine ⟨metadata.image_crc32, ?_⟩
  have hlawful := plain_lawful .F446 (run_update (smallBinary 0 2) metadata.image_crc32 7 false)
  have hspares : AtEvery .F446 erasedCopies erasedSlots (smallDownload metadata.image_crc32)
      (SparesCandidate .F446) := by
    intro sent delivery hsent
    obtain ⟨packet, -, rfl⟩ := List.mem_map.mp
      (hsent.subset (List.mem_append_right _ (List.mem_singleton_self _)))
    exact succeeding_spares (driver_succeeds .F446)
  have hactivate := (activate_first (plain_carries .F446 (bare UPDATE_CMD_ACTIVATE 7)) hstage
    small_generation).1
  unfold smallDownload at hactivate hspares ⊢
  generalize List.map (plain .F446) _ = deliveries at hactivate hspares hlawful ⊢
  have hstate : (deliverAll .F446 erasedCopies erasedSlots deliveries).1 =
      (at_least_once.runAll (processOne .F446) deliveries freshState).2 := foldl_deliver _ _
  rw [← hstate] at hactivate
  exact ⟨hactivate, activates_valid .F446 erasedCopies erasedSlots deliveries hlawful hspares
    (driver .F446 noFault) .Completes (bare UPDATE_CMD_ACTIVATE 7) rfl hactivate⟩

/-- The small image downloaded, and then a second BEGIN whose sector erases and fails. -/
def spoiledDownload (image_crc32 : UInt32) : List Delivery :=
  smallDownload image_crc32 ++
    [{ flash := driver .F446 eraseFault
       save := .Completes
       packet := beginPacket 7 (smallBinary 0 2) image_crc32 }]

/-- The failed BEGIN leaves the session as it is, and an erased slot. -/
theorem begin_spoils {state : UpdateState} {packet : UpdatePacket} {save : SaveOutcome}
    (command : packet.command = UPDATE_CMD_BEGIN) (accepted : BeginAccepted .F446 packet) :
    let next := (boot_update_session_process .F446 (driver .F446 eraseFault) save packet state).2
    next.session = state.session ∧ next.copies = state.copies ∧
      ∀ i < 0x240, next.slots.image (beginSlot state) i = 0xFF := by
  have herase := @driver_eraseFault state.slots _ _ (beginSlot_valid state) accepted.2.1
    accepted.2.2
  have hfailed : ((driver .F446 eraseFault).erase_slot state.slots (beginSlot state)
      (read_u32_le packet.payload 0)).1 ≠ .Ok := by
    rw [herase]
    nofun
  intro next
  have hnext : next = _ := congrArg Prod.snd (process_begin_failed command accepted hfailed)
  rw [hnext]
  refine ⟨rfl, rfl, ?_⟩
  intro i hi
  dsimp only
  rw [herase]
  dsimp only
  rw [Slots.image_set_self]
  exact if_pos ⟨Nat.zero_le i, by rw [Nat.zero_add]; exact Nat.lt_trans hi (by decide), rfl⟩

/-- The session activates a candidate that the failed BEGIN has erased. -/
theorem spoiled_activates {first : BootUpdateSession} {copies : Copies} {binary : List UInt8}
    {image_crc32 session_id version capacity : UInt32} {state : UpdateState}
    (hstage : Stage copies (validSession first copies binary image_crc32 session_id version) binary
      state)
    (accepted : BeginAccepted .F446 (beginPacket session_id binary image_crc32)) :
    let next := (boot_update_session_process .F446 (driver .F446 eraseFault) .Completes
      (beginPacket session_id binary image_crc32) state).2
    (boot_update_session_process .F446 (driver .F446 noFault) .Completes
        (bare UPDATE_CMD_ACTIVATE session_id) next).1 = .Ok ∧
      (app_image_validate (next.slots.image next.session.target_slot) capacity).status ≠
        .Valid := by
  intro next
  obtain ⟨hsession, hcopies, herased⟩ :
    next.session = state.session ∧ next.copies = state.copies ∧
      ∀ i < 0x240, next.slots.image (beginSlot state) i = 0xFF := begin_spoils rfl accepted
  have hknown := hsession.trans hstage.session_eq
  have hslot : beginSlot state = next.session.target_slot := by
    rw [hknown]
    exact congrArg (fun copies => boot_policy_inactive_slot (boot_state_store_load copies))
      hstage.copies_eq
  have hof : OfSession (bare UPDATE_CMD_ACTIVATE session_id) next :=
    ofSession_of_eq hknown rfl rfl
  refine ⟨?_, ?_⟩
  · rw [process_activate rfl hof (congrArg BootUpdateSession.candidate_valid hknown)]
  · rw [← hslot]
    exact erased_rejected herased

/-- After the failed erase an ACTIVATE still returns OK, with no image in the slot. -/
theorem activates_erased : ∃ image_crc32,
    let sent := spoiledDownload image_crc32
    let state := (deliverAll .F446 erasedCopies erasedSlots sent).1
    (∀ delivery ∈ sent, LawfulFlash delivery.flash) ∧
      (boot_update_session_process .F446 (driver .F446 noFault) .Completes
        (bare UPDATE_CMD_ACTIVATE 7) state).1 = .Ok ∧
      (app_image_validate (state.slots.image state.session.target_slot)
        (APP_SLOT_SIZE .F446)).status ≠ .Valid := by
  obtain ⟨metadata, hok, hstage⟩ := small_download
  refine ⟨metadata.image_crc32, ?_⟩
  have hlawful := plain_lawful .F446 (run_update (smallBinary 0 2) metadata.image_crc32 7 false)
  have haccepted : BeginAccepted .F446 (beginPacket 7 (smallBinary 0 2) metadata.image_crc32) :=
    begin_accepted 7 _ _ (by rw [length_smallBinary 0 (by decide)]; decide)
      (small_fits 0 (by decide))
  unfold spoiledDownload smallDownload
  unfold smallDownload at hstage
  generalize List.map (plain .F446) _ = deliveries at hstage hlawful ⊢
  generalize smallBinary 0 2 = binary at hstage haccepted ⊢
  have hstate : (deliverAll .F446 erasedCopies erasedSlots deliveries).1 =
      (at_least_once.runAll (processOne .F446) deliveries freshState).2 := foldl_deliver _ _
  rw [← hstate] at hstage
  dsimp only
  rw [deliverAll_snoc, deliver_state]
  refine ⟨?_, spoiled_activates hstage haccepted⟩
  intro delivery hmem
  rcases List.mem_append.mp hmem with hmem | hmem
  · exact hlawful delivery hmem
  · rw [List.mem_singleton.mp hmem]
    exact driver_lawful .F446 eraseFault

end stm32_vibe.candidate_laws
