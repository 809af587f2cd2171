-- The laws of a transfer, over any row of packets: the session never counts
-- more than it announced, the slot starts with the bytes that were accepted, and
-- a validation looks at these bytes alone.
import Stm32Vibe.RepeatedUpdate

namespace stm32_vibe.transfer_laws

open little_endian boot_state boot_policy boot_state_store app_image boot_flash update_protocol
  update_session at_least_once finalize_image uart_update repeated_update

/-! ## Rows of packets and their observer -/

/-- The slot that is not the active one is pending. -/
def OtherPending (state : BootStateRecord) : Prop :=
  state.pending_slot ≠ BOOT_STATE_NO_SLOT ∧ state.pending_slot ≠ state.active_slot

instance (state : BootStateRecord) : Decidable (OtherPending state) :=
  inferInstanceAs (Decidable (_ ∧ _))

/-- What an observer of the packets and their statuses notes. -/
structure Transfer where
  /-- The size that the last accepted BEGIN announced. -/
  announced : UInt32
  /-- The payloads of the blocks accepted as new since then, in order. -/
  bytes : List UInt8
  /-- A BEGIN failed since then. -/
  begin_failed : Bool
  /-- The stored record named the other slot as pending at that BEGIN. -/
  over_pending : Bool

def Transfer.observe (transfer : Transfer) (state : UpdateState) (packet : UpdatePacket)
    (status : UpdateStatus) : Transfer :=
  if packet.command = UPDATE_CMD_BEGIN then
    if status = .Ok then
      { announced := read_u32_le packet.payload 0
        bytes := []
        begin_failed := false
        over_pending := OtherPending (boot_state_store_load state.copies) }
    else { transfer with begin_failed := true }
  else if packet.command = UPDATE_CMD_BLOCK ∧ status = .Ok ∧
      packet.sequence = state.session.received_image_size then
    { transfer with bytes := transfer.bytes ++ packet.payload }
  else transfer

def deliver (board : Board) (at_ : UpdateState × Transfer) (delivery : Delivery) :
    UpdateState × Transfer :=
  let (status, next) :=
    boot_update_session_process board delivery.flash delivery.save delivery.packet at_.1
  (next, at_.2.observe at_.1 delivery.packet status)

theorem deliver_state (board : Board) (at_ : UpdateState × Transfer) (delivery : Delivery) :
    (deliver board at_ delivery).1 =
      (boot_update_session_process board delivery.flash delivery.save delivery.packet at_.1).2 :=
  rfl

/-- A session after `boot_update_session_init`, on any store and any slots. -/
def start (copies : Copies) (slots : Slots) : UpdateState × Transfer :=
  ({ session := boot_update_session_init, copies, slots, saves := [], flash_calls := [] },
    { announced := 0, bytes := [], begin_failed := false, over_pending := false })

def deliverAll (board : Board) (copies : Copies) (slots : Slots) (deliveries : List Delivery) :
    UpdateState × Transfer :=
  deliveries.foldl (deliver board) (start copies slots)

/-- What every delivery keeps holds after a row of them. -/
theorem deliverAll_induct {board : Board} {copies : Copies} {slots : Slots}
    {deliveries : List Delivery} {motive : UpdateState → Transfer → Prop}
    (hstart : motive (start copies slots).1 (start copies slots).2)
    (hstep : ∀ state transfer, motive state transfer → ∀ delivery ∈ deliveries, ∀ status next,
      PacketStep board delivery.flash delivery.save delivery.packet state status next →
      motive next (transfer.observe state delivery.packet status)) :
    motive (deliverAll board copies slots deliveries).1
      (deliverAll board copies slots deliveries).2 :=
  List.foldlRecOn (motive := fun at_ => motive at_.1 at_.2) deliveries (deliver board) hstart
    fun at_ h delivery hmem => hstep at_.1 at_.2 h delivery hmem _ _ (packetStep ..)

/-- Without its notes, the row of packets is the one that `processAll` runs. -/
theorem foldl_deliver {board : Board} (deliveries : List Delivery) (at_ : UpdateState × Transfer) :
    (deliveries.foldl (deliver board) at_).1 = (processAll board deliveries at_.1).2 := by
  induction deliveries generalizing at_ with
  | nil => rfl
  | cons delivery rest ih =>
    rw [List.foldl_cons, ih]
    rfl

/-! ## What the observer notes -/

theorem flash_error_ne_ok : UpdateStatus.FlashError ≠ .Ok := by decide

section
variable {board : Board} {flash : BootFlash} {save : SaveOutcome} {packet : UpdatePacket}
  {state : UpdateState} (transfer : Transfer)

/-- Of a packet that changes nothing, the observer notes a failed BEGIN at most. -/
theorem observe_idle {status : UpdateStatus}
    (quiet : status = .Ok → packet.command = UPDATE_CMD_DISCOVER ∨
      packet.command = UPDATE_CMD_STATUS ∨ packet.command = UPDATE_CMD_ENTER_UPDATE ∨
      (packet.command = UPDATE_CMD_BLOCK ∧
        packet.sequence < state.session.received_image_size)) :
    transfer.observe state packet status = transfer ∨
      transfer.observe state packet status = { transfer with begin_failed := true } := by
  unfold Transfer.observe
  split
  · rename_i hbegin
    split
    · rename_i hok
      rcases quiet hok with h | h | h | ⟨h, -⟩ <;>
        exact absurd (hbegin.symm.trans h) (by decide)
    · exact Or.inr rfl
  · split
    · rename_i hblock
      obtain ⟨hcommand, hok, hseq⟩ := hblock
      rcases quiet hok with h | h | h | ⟨-, h⟩
      · exact absurd (hcommand.symm.trans h) (by decide)
      · exact absurd (hcommand.symm.trans h) (by decide)
      · exact absurd (hcommand.symm.trans h) (by decide)
      · rw [hseq] at h
        exact absurd h (UInt32.lt_irrefl _)
    · exact Or.inl rfl

/-- A packet that is answered with OK is no failed BEGIN. -/
theorem observe_ok (h : transfer.begin_failed = false) :
    (transfer.observe state packet .Ok).begin_failed = false := by
  unfold Transfer.observe
  rw [if_pos rfl]
  split
  · rfl
  · split
    · exact h
    · exact h

theorem observe_begin_failed {status : UpdateStatus} (h : packet.command = UPDATE_CMD_BEGIN)
    (hs : status ≠ .Ok) :
    transfer.observe state packet status = { transfer with begin_failed := true } := by
  unfold Transfer.observe
  rw [if_pos h, if_neg hs]

theorem observe_begun (h : packet.command = UPDATE_CMD_BEGIN) :
    transfer.observe state packet .Ok =
      { announced := read_u32_le packet.payload 0
        bytes := []
        begin_failed := false
        over_pending := OtherPending (boot_state_store_load state.copies) } := by
  unfold Transfer.observe
  rw [if_pos h, if_pos rfl]

theorem observe_block (h : packet.command = UPDATE_CMD_BLOCK)
    (hs : packet.sequence = state.session.received_image_size) :
    transfer.observe state packet .Ok =
      { transfer with bytes := transfer.bytes ++ packet.payload } := by
  unfold Transfer.observe
  rw [if_neg (by rw [h]; decide), if_pos ⟨h, rfl, hs⟩]

/-- Other commands leave the notes, whatever they return. -/
theorem observe_other {status : UpdateStatus} (hb : packet.command ≠ UPDATE_CMD_BEGIN)
    (h : status ≠ .Ok ∨ packet.command ≠ UPDATE_CMD_BLOCK) :
    transfer.observe state packet status = transfer := by
  unfold Transfer.observe
  rw [if_neg hb, if_neg fun hblock => h.elim (fun hs => hs hblock.2.1) fun hc => hc hblock.1]

end

/-- No BEGIN fails in a row of packets that are all answered with OK. -/
theorem foldl_deliver_ok {board : Board} {deliveries : List Delivery}
    {at_ : UpdateState × Transfer} (h : at_.2.begin_failed = false)
    (hok : ∀ status ∈ (processAll board deliveries at_.1).1, status = .Ok) :
    (deliveries.foldl (deliver board) at_).2.begin_failed = false := by
  induction deliveries generalizing at_ with
  | nil => exact h
  | cons delivery rest ih =>
    rw [List.foldl_cons]
    have hfirst : (boot_update_session_process board delivery.flash delivery.save delivery.packet
        at_.1).1 = .Ok := hok _ (List.mem_cons_self ..)
    apply ih
    · unfold deliver
      dsimp only
      rw [hfirst]
      exact observe_ok at_.2 h
    · intro status hmem
      exact hok status (List.mem_cons_of_mem _ hmem)

/-! ## The invariant of a transfer -/

/-- An active session and the notes agree. -/
structure TransferGood (board : Board) (state : UpdateState) (transfer : Transfer) : Prop where
  target : slot_is_valid state.session.target_slot
  announced : state.session.expected_image_size = transfer.announced
  expected_le : state.session.expected_image_size ≤ APP_SLOT_SIZE board
  received_le : state.session.received_image_size ≤ state.session.expected_image_size
  received : state.session.received_image_size.toNat = transfer.bytes.length
  complete : state.session.transfer_complete = true →
    state.session.received_image_size = state.session.expected_image_size
  holds : transfer.begin_failed = false →
    Holds (state.slots.image state.session.target_slot) transfer.bytes

section
variable {board : Board} {flash : BootFlash} {save : SaveOutcome} {packet : UpdatePacket}
  {state next : UpdateState} {status : UpdateStatus} {transfer : Transfer}

theorem TransferGood.with_begin_failed (h : TransferGood board state transfer) :
    TransferGood board state { transfer with begin_failed := true } :=
  { h with holds := nofun }

/-- A new block, written at the end of what was received. -/
theorem transferGood_block (hflash : LawfulFlash flash) (h : TransferGood board state transfer)
    (new : BlockNew state.session packet)
    (written : (flash.write_slot state.slots state.session.target_slot packet.sequence
      packet.payload).1 = .Ok) :
    TransferGood board
      { state with
        session := { state.session with
          received_image_size :=
            state.session.received_image_size + packet.payload_len.toUInt32 }
        slots := (flash.write_slot state.slots state.session.target_slot packet.sequence
          packet.payload).2
        flash_calls := state.flash_calls ++
          [.Write state.session.target_slot packet.sequence packet.payload] }
      { transfer with bytes := transfer.bytes ++ packet.payload } := by
  have hseq : packet.sequence.toNat = transfer.bytes.length := by
    rw [new.sequence, h.received]
  have hroom := new.room
  have hlt := state.session.expected_image_size.toNat_lt
  have hsum : (state.session.received_image_size + packet.payload_len.toUInt32).toNat =
      transfer.bytes.length + packet.payload.length := by
    rw [UInt32.toNat_add, toNat_payload_len, h.received]
    exact Nat.mod_eq_of_lt (by omega)
  constructor
  case target => exact h.target
  case announced => exact h.announced
  case expected_le => exact h.expected_le
  case received_le =>
    rw [UInt32.le_iff_toNat_le]
    dsimp only
    omega
  case received =>
    dsimp only
    rw [hsum, List.length_append]
  case complete =>
    intro hc
    -- a complete transfer has no room for a block
    have hfull := congrArg UInt32.toNat (h.complete hc)
    have hnonempty := new.nonempty
    rw [h.received] at hfull
    omega
  case holds =>
    intro hb
    have hold : Holds ((flash.write_slot state.slots state.session.target_slot packet.sequence
        packet.payload).2.image state.session.target_slot) transfer.bytes :=
      (h.holds hb).congr fun i hi => hflash.write_before _ _ _ _ i (by omega)
    apply hold.append
    intro k hk
    rw [← hseq]
    exact hflash.write_ok _ _ _ _ written k hk

/-- Every packet keeps the agreement of an active session with the notes. -/
theorem transferGood_step (hflash : LawfulFlash flash)
    (h : state.session.session_active = true → TransferGood board state transfer)
    (step : PacketStep board flash save packet state status next)
    (hactive : next.session.session_active = true) :
    TransferGood board next (transfer.observe state packet status) := by
  cases step with
  | idle status quiet =>
    rcases observe_idle transfer quiet with ho | ho <;> rw [ho]
    · exact h hactive
    · exact (h hactive).with_begin_failed
  | begin_failed command accepted failed =>
    rw [observe_begin_failed transfer command flash_error_ne_ok]
    exact { h hactive with holds := nofun }
  | begun command accepted erased =>
    rw [observe_begun transfer command]
    exact
      { target := beginSlot_valid state
        announced := rfl
        expected_le := accepted.2.2
        received_le := UInt32.zero_le
        received := rfl
        complete := nofun
        holds := fun _ => holds_nil _ }
  | block_failed command active new failed =>
    rw [observe_other transfer (by rw [command]; decide) (Or.inl flash_error_ne_ok)]
    have hgood := h active
    refine { hgood with holds := fun hb => (hgood.holds hb).congr fun i hi => ?_ }
    refine hflash.write_before _ _ _ _ i ?_
    rw [new.sequence, hgood.received]
    exact hi
  | block command active new written =>
    rw [observe_block transfer command new.sequence]
    exact transferGood_block hflash (h active) new written
  | ended command active received =>
    rw [observe_other transfer (by rw [command]; decide) (Or.inr (by rw [command]; decide))]
    exact { h active with complete := fun _ => received }
  | validated command active accepted =>
    rw [observe_other transfer (by rw [command]; decide) (Or.inr (by rw [command]; decide))]
    exact { h active with }
  | activate_failed command active valid incomplete =>
    rw [observe_other transfer (by rw [command]; decide) (Or.inl flash_error_ne_ok)]
    exact { h active with }
  | activated command active valid completes =>
    rw [observe_other transfer (by rw [command]; decide) (Or.inr (by rw [command]; decide))]
    exact { h active with }
  | aborted command => cases hactive

end

/-! ## The laws -/

/-- A validation that returns OK looked at the received bytes and no others:
the announced size is the size of the image, and every image that starts with
these bytes has the same result, the same manifest and the same first vectors. -/
structure ValidatesReceived (board : Board) (state : UpdateState) (transfer : Transfer) : Prop where
  size : (manifestOf (state.slots.image state.session.target_slot)).image_size =
    state.session.expected_image_size
  received : state.session.received_image_size = state.session.expected_image_size
  only (image : Image) : Holds image transfer.bytes →
    app_image_validate image (APP_SLOT_SIZE board) =
        app_image_validate (state.slots.image state.session.target_slot) (APP_SLOT_SIZE board) ∧
      manifestOf image = manifestOf (state.slots.image state.session.target_slot) ∧
      readWord image 0 = readWord (state.slots.image state.session.target_slot) 0 ∧
      readWord image 4 = readWord (state.slots.image state.session.target_slot) 4

theorem validates_received {board : Board} {state : UpdateState} {transfer : Transfer}
    (h : TransferGood board state transfer) (hb : transfer.begin_failed = false)
    (accepted : CandidateAccepted board state) : ValidatesReceived board state transfer := by
  have hreceived := h.complete accepted.complete
  have hbytes : (manifestOf (state.slots.image state.session.target_slot)).image_size.toNat =
      transfer.bytes.length := by
    rw [accepted.size, ← hreceived, h.received]
  refine ⟨accepted.size, hreceived, ?_⟩
  intro image himage
  have hsame : ∀ i < transfer.bytes.length,
      state.slots.image state.session.target_slot i = image i := by
    intro i hi
    rw [h.holds hb i hi, himage i hi]
  have hmin := image_size_ge accepted.image
  refine ⟨app_image_validate_congr accepted.image fun i hi => hsame i (by omega), ?_, ?_, ?_⟩
  · exact (manifestOf_congr fun i hi => hsame i (by omega)).symm
  · exact (readWord_congr fun k hk => hsame (0 + k) (by omega)).symm
  · exact (readWord_congr fun k hk => hsame (4 + k) (by omega)).symm

/-- After any row of packets, an active session whose last accepted BEGIN was
followed by no failed one holds exactly the bytes that it counts. -/
theorem transfer_holds (board : Board) (copies : Copies) (slots : Slots)
    (deliveries : List Delivery) (hflash : ∀ delivery ∈ deliveries, LawfulFlash delivery.flash) :
    let state := (deliverAll board copies slots deliveries).1
    let transfer := (deliverAll board copies slots deliveries).2
    state.session.session_active = true → transfer.begin_failed = false →
      state.session.received_image_size ≤ state.session.expected_image_size ∧
      state.session.expected_image_size ≤ APP_SLOT_SIZE board ∧
      state.session.received_image_size.toNat = transfer.bytes.length ∧
      Holds (state.slots.image state.session.target_slot) transfer.bytes ∧
      (state.session.transfer_complete = true →
        state.session.received_image_size = state.session.expected_image_size) ∧
      ∀ (flash : BootFlash) (save : SaveOutcome) (packet : UpdatePacket),
        packet.command = UPDATE_CMD_VALIDATE →
        (boot_update_session_process board flash save packet state).1 = .Ok →
        ValidatesReceived board state transfer := by
  intro state transfer hactive hb
  have hgood : state.session.session_active = true → TransferGood board state transfer :=
    deliverAll_induct (motive := fun state transfer =>
        state.session.session_active = true → TransferGood board state transfer) nofun
      fun state transfer h delivery hmem status next step hnext =>
        transferGood_step (hflash delivery hmem) h step hnext
  have h := hgood hactive
  refine ⟨h.received_le, h.expected_le, h.received, h.holds hb, h.complete, ?_⟩
  intro flash save packet command hok
  exact validates_received h hb (validate_ok command hok).2

/-- The download of a binary to an F446, up to its validation. -/
def download (binary : List UInt8) (image_crc32 : UInt32) : List Delivery :=
  (run_update binary image_crc32 7 false).map (plain .F446)

/-- From any state, the download of a small image succeeds. -/
theorem download_run (third : UInt32) {vector_words : Nat} (hw : vector_words < 2 ^ 32)
    (hr : 2 ≤ vector_words ∧ vector_words ≤ 128) : ∃ metadata : Metadata,
    Finalized (smallImage third) (smallBinary third vector_words) metadata ∧
      ∀ state, RunsTo (processOne .F446) .Ok
        (download (smallBinary third vector_words) metadata.image_crc32) state
        (Stage state.copies
          (validSession state.session state.copies (smallBinary third vector_words)
            metadata.image_crc32 7 metadata.software_version.toNat.toUInt32)
          (smallBinary third vector_words)) := by
  obtain ⟨manifest, metadata, hok, -⟩ := smallBinary_finalized third hw
  have hfin := finalize_bytes_ok hok
  exact ⟨metadata, hfin, fun state => transfer_run hfin (small_fits third hw)
    (small_vectors_target third hw hr _) (.once (plain_once _ _))⟩

/-- The download of the small image. -/
def smallDownload (image_crc32 : UInt32) : List Delivery :=
  (run_update (smallBinary 0 2) image_crc32 7 false).map (plain .F446)

theorem small_download_run : ∃ metadata : Metadata, ∀ state,
    RunsTo (processOne .F446) .Ok (smallDownload metadata.image_crc32) state
      (Stage state.copies
        (validSession state.session state.copies (smallBinary 0 2) metadata.image_crc32 7
          metadata.software_version.toNat.toUInt32) (smallBinary 0 2)) := by
  obtain ⟨metadata, -, hrun⟩ := download_run 0 (by decide : 2 < 2 ^ 32) (by decide)
  exact ⟨metadata, hrun⟩

theorem small_download : ∃ metadata : Metadata,
    RunsTo (processOne .F446) .Ok (smallDownload metadata.image_crc32) freshState
      (Stage freshState.copies
        (validSession freshState.session freshState.copies (smallBinary 0 2) metadata.image_crc32 7
          metadata.software_version.toNat.toUInt32) (smallBinary 0 2)) := by
  obtain ⟨metadata, hrun⟩ := small_download_run
  exact ⟨metadata, hrun freshState⟩

/-- After the download of the small image, the session counts all its bytes. -/
theorem transfer_holds_small : ∃ image_crc32,
    let state := (deliverAll .F446 erasedCopies erasedSlots (smallDownload image_crc32)).1
    let transfer := (deliverAll .F446 erasedCopies erasedSlots (smallDownload image_crc32)).2
    state.session.session_active = true ∧ state.session.transfer_complete = true ∧
      state.session.received_image_size = state.session.expected_image_size ∧
      Holds (state.slots.image state.session.target_slot) transfer.bytes := by
  obtain ⟨metadata, hok, hstage⟩ := small_download
  refine ⟨metadata.image_crc32, ?_⟩
  have hlawful := plain_lawful .F446 (run_update (smallBinary 0 2) metadata.image_crc32 7 false)
  have hsession := hstage.session_eq
  unfold smallDownload at hok hsession ⊢
  generalize List.map (plain .F446) _ = deliveries at hok hsession hlawful ⊢
  have hstate : (deliverAll .F446 erasedCopies erasedSlots deliveries).1.session = _ :=
    (congrArg UpdateState.session (foldl_deliver _ _)).trans hsession
  have hactive := congrArg BootUpdateSession.session_active hstate
  have hcomplete := congrArg BootUpdateSession.transfer_complete hstate
  have hlaws := transfer_holds .F446 erasedCopies erasedSlots deliveries hlawful hactive
    (foldl_deliver_ok rfl hok)
  exact ⟨hactive, hcomplete, hlaws.2.2.2.2.1 hcomplete, hlaws.2.2.2.1⟩

end stm32_vibe.transfer_laws
