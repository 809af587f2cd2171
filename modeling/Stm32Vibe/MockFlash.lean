-- The flash of the session tests beside the drivers: over either one the session
-- gives the same statuses as long as every block that it writes is aligned.
import Stm32Vibe.SlotDriver
import Stm32Vibe.UpdateSession
import Stm32Vibe.Lib.Lockstep

namespace stm32_vibe.boot_flash_mock

open little_endian boot_state boot_policy boot_state_store app_image boot_flash update_protocol
  update_session lockstep

/-! ## The mock -/

def boot_flash_erase_slot (board : Board) (forced_result : BootFlashResult) (slots : Slots)
    (slot image_size : UInt32) : BootFlashResult × Slots :=
  if forced_result ≠ .Ok then (forced_result, slots)
  else if ¬ slot_is_valid slot then (.InvalidArgument, slots)
  else if image_size = 0 ∨ image_size > APP_SLOT_SIZE board then (.InvalidArgument, slots)
  else
    (.Ok, slots.set slot
      (eraseRange (slots.image slot) 0 (APP_SLOT_SIZE board).toNat fun _ => true))

/-- `memcpy` into the slot. -/
def copyBytes (image : Image) (offset : Nat) (data : List UInt8) : Image := fun i =>
  if offset ≤ i ∧ i < offset + data.length then data.getD (i - offset) 0 else image i

def boot_flash_write_slot (board : Board) (forced_result : BootFlashResult) (slots : Slots)
    (slot offset : UInt32) (data : List UInt8) : BootFlashResult × Slots :=
  if forced_result ≠ .Ok then (forced_result, slots)
  else if ¬ slot_is_valid slot then (.InvalidArgument, slots)
  else if offset > APP_SLOT_SIZE board ∨ data.length > (APP_SLOT_SIZE board - offset).toNat then
    (.InvalidArgument, slots)
  else (.Ok, slots.set slot (copyBytes (slots.image slot) offset.toNat data))

def mockFlash (board : Board) (forced_result : BootFlashResult) : BootFlash where
  erase_slot := boot_flash_erase_slot board forced_result
  write_slot := boot_flash_write_slot board forced_result

/-! ## What both have in common -/

/-- The end of the word that the byte before `size` is in. -/
def wordEnd (size : Nat) : Nat := (size + 3) / 4 * 4

/-- A flash for a session that writes each word of an erased slot once. -/
structure ErasedWordFlash (board : Board) (flash : BootFlash) : Prop where
  erase_ok (slots : Slots) (slot image_size : UInt32) : slot_is_valid slot → image_size ≠ 0 →
    image_size ≤ APP_SLOT_SIZE board → (flash.erase_slot slots slot image_size).1 = .Ok
  erase_bytes (slots : Slots) (slot image_size : UInt32) :
    (flash.erase_slot slots slot image_size).1 = .Ok →
      ∀ i < wordEnd image_size.toNat, (flash.erase_slot slots slot image_size).2.image slot i = 0xFF
  write_ok (slots : Slots) (slot offset : UInt32) (data : List UInt8) : slot_is_valid slot →
    offset &&& 3 = 0 → offset.toNat + data.length ≤ (APP_SLOT_SIZE board).toNat →
      (flash.write_slot slots slot offset data).1 = .Ok
  write_bytes (slots : Slots) (slot offset : UInt32) (data : List UInt8) :
    (flash.write_slot slots slot offset data).1 = .Ok →
      (∀ i, offset.toNat ≤ i → i < offset.toNat + wordEnd data.length →
        slots.image slot i = 0xFF) →
      ∀ i < (APP_SLOT_SIZE board).toNat, (flash.write_slot slots slot offset data).2.image slot i =
        copyBytes (slots.image slot) offset.toNat data i

/-- The mock, which also writes at an offset that is not aligned. -/
theorem mock_write_ok (board : Board) (slots : Slots) {slot offset : UInt32} {data : List UInt8}
    (hs : slot_is_valid slot)
    (hle : offset.toNat + data.length ≤ (APP_SLOT_SIZE board).toNat) :
    (mockFlash board .Ok).write_slot slots slot offset data =
      (.Ok, slots.set slot (copyBytes (slots.image slot) offset.toNat data)) := by
  have hoffset : offset ≤ APP_SLOT_SIZE board := UInt32.le_iff_toNat_le.mpr (by omega)
  have hdata : ¬ data.length > (APP_SLOT_SIZE board - offset).toNat := by
    rw [UInt32.toNat_sub_of_le _ _ hoffset]
    omega
  simp [mockFlash, boot_flash_write_slot, hs, UInt32.not_lt.mpr hoffset, hdata]

theorem mock_erasedWordFlash (board : Board) : ErasedWordFlash board (mockFlash board .Ok) where
  erase_ok slots slot image_size hs h0 hle := by
    simp [mockFlash, boot_flash_erase_slot, hs, h0, UInt32.not_lt.mpr hle]
  erase_bytes slots slot image_size hok i hi := by
    simp only [mockFlash, boot_flash_erase_slot, ne_eq, not_true_eq_false, if_false] at hok ⊢
    split at hok
    · cases hok
    · rename_i hs
      split at hok
      · cases hok
      · rename_i hsize
        rw [if_neg hs, if_neg hsize]
        simp only [not_or, gt_iff_lt, UInt32.not_lt] at hsize
        have hle := UInt32.le_iff_toNat_le.mp hsize.2
        have hpages := flash_driver.slot_size_pages board
        unfold wordEnd at hi
        rw [Slots.image_set_self]
        exact if_pos ⟨Nat.zero_le i, by omega, rfl⟩
  write_ok slots slot offset data hs _ hle := by rw [mock_write_ok board slots hs hle]
  write_bytes slots slot offset data hok _ i _ := by
    simp only [mockFlash, boot_flash_write_slot, ne_eq, not_true_eq_false, if_false] at hok ⊢
    split at hok
    · cases hok
    · rename_i hs
      split at hok
      · cases hok
      · rename_i hsize
        rw [if_neg hs, if_neg hsize, Slots.image_set_self]

section
variable (board : Board) (controller : flash_driver.FlashController)
  (hunlocks : controller.unlocks = true) (hready : ∀ wait, controller.ready wait = true)

include hunlocks hready in
theorem driver_erasedWordFlash :
    ErasedWordFlash board (flash_driver.slotDriver board controller) where
  erase_ok := (flash_driver.slotDriver_succeeds board controller hunlocks hready).erase
  erase_bytes slots slot image_size hok i hi := by
    obtain ⟨hs, hle, -⟩ := flash_driver.erase_slot_log board controller slot (Or.inr hok)
    have hsize := UInt32.le_iff_toNat_le.mp hle
    have hpages := flash_driver.slot_size_pages board
    unfold wordEnd at hi
    simp only [flash_driver.slotDriver, flash_driver.readSlots_image board slots _ hs]
    rw [if_pos (by omega)]
    exact flash_driver.erase_covers board controller slot _ hok hi
  write_ok := (flash_driver.slotDriver_succeeds board controller hunlocks hready).write
  write_bytes slots slot offset data hok herased i hi := by
    simp only [flash_driver.slotDriver] at hok ⊢
    split at hok
    · rename_i hlength
      have hlen := flash_driver.ofNat_length hlength
      obtain ⟨hs, hle, haligned, -⟩ :=
        flash_driver.write_slot_log board controller slot (Or.inr hok)
      have hpages := flash_driver.slot_size_pages board
      unfold wordEnd at herased
      rw [if_pos hlength]
      dsimp only
      rw [flash_driver.readSlots_image board slots _ hs, if_pos hi,
        flash_driver.write_stores board controller slot _ hok, hlen, copyBytes,
        flash_driver.flashOf_at board slots hs hi]
      · simp
      · intro k hk hkl
        rw [flash_driver.flashOf_at board slots hs (by omega)]
        exact herased k hk (by omega)
    · cases hok

/-- The drivers refuse an offset that is not aligned. -/
theorem driver_write_unaligned (slots : Slots) {slot offset : UInt32} {data : List UInt8}
    (h3 : offset &&& 3 ≠ 0) :
    ((flash_driver.slotDriver board controller).write_slot slots slot offset data).1 ≠ .Ok := by
  intro hok
  simp only [flash_driver.slotDriver] at hok
  split at hok
  · obtain ⟨-, -, haligned, -⟩ := flash_driver.write_slot_log board controller slot (Or.inr hok)
    exact h3 ((flash_driver.aligned_iff offset).mpr haligned)
  · cases hok

end

/-! ## The session over both -/

/-- A packet with the end of the save that it meets. -/
structure Input where
  packet : UpdatePacket
  save : SaveOutcome

def sessionStep (board : Board) (flash : BootFlash) (state : UpdateState) (input : Input) :
    UpdateStatus × UpdateState :=
  boot_update_session_process board flash input.save input.packet state

/-- A block that the session writes starts at a word of the slot. -/
def BlockAligned (state : UpdateState) (input : Input) : Prop :=
  input.packet.command = UPDATE_CMD_BLOCK → OfSession input.packet state →
    BlockNew state.session input.packet → input.packet.sequence &&& 3 = 0

/-- The slots of an active session: what the update did not reach yet is erased. -/
structure Prepared (board : Board) (session : BootUpdateSession) (slots : Slots) : Prop where
  target : slot_is_valid session.target_slot
  size_le : session.expected_image_size.toNat ≤ (APP_SLOT_SIZE board).toNat
  received_le : session.received_image_size.toNat ≤ session.expected_image_size.toNat
  erased : ∀ i, session.received_image_size.toNat ≤ i →
    i < wordEnd session.expected_image_size.toNat → slots.image session.target_slot i = 0xFF

/-- Two slot contents under one session hold the same image. -/
structure Alike (board : Board) (session : BootUpdateSession) (slots slots' : Slots) : Prop where
  bytes : ∀ i < session.expected_image_size.toNat,
    slots.image session.target_slot i = slots'.image session.target_slot i
  prepared : session.session_active = true →
    Prepared board session slots ∧ Prepared board session slots'

/-- The slots stay alike under a session with the same slot, size and progress. -/
theorem Alike.keep {board : Board} {session session' : BootUpdateSession} {slots slots' : Slots}
    (h : Alike board session slots slots') (htarget : session'.target_slot = session.target_slot)
    (hsize : session'.expected_image_size = session.expected_image_size)
    (hreceived : session'.received_image_size = session.received_image_size)
    (hactive : session'.session_active = session.session_active) :
    Alike board session' slots slots' := by
  have hkeep : ∀ contents, Prepared board session contents → Prepared board session' contents := by
    rintro contents ⟨target, size_le, received_le, erased⟩
    constructor
    · rwa [htarget]
    · rwa [hsize]
    · rwa [hsize, hreceived]
    · rwa [htarget, hsize, hreceived]
  constructor
  · rw [htarget, hsize]
    exact h.bytes
  · intro active
    rw [hactive] at active
    exact (h.prepared active).imp (hkeep slots) (hkeep slots')

/-- The states differ in the slots at most. -/
structure Together (board : Board) (state state' : UpdateState) : Prop where
  same : state' = { state with slots := state'.slots }
  alike : Alike board state.session state.slots state'.slots

/-- One packet gives the same status over both and keeps the states together. -/
def Agree (board : Board) (result result' : UpdateStatus × UpdateState) : Prop :=
  result.1 = result'.1 ∧ Together board result.2 result'.2

section
variable {board : Board} {f g : BootFlash} {packet : UpdatePacket} {save : SaveOutcome}
  {state : UpdateState} {slots' : Slots}

theorem agree_idle (h : Alike board state.session state.slots slots') (status : UpdateStatus) :
    Agree board (status, state) (status, { state with slots := slots' }) :=
  ⟨rfl, rfl, h⟩

/-- One condition decides on both sides. -/
theorem agree_ite {c : Prop} [Decidable c] {a b a' b' : UpdateStatus × UpdateState}
    (hthen : c → Agree board a a') (helse : ¬ c → Agree board b b') :
    Agree board (if c then a else b) (if c then a' else b') := by
  by_cases h : c
  · rw [if_pos h, if_pos h]
    exact hthen h
  · rw [if_neg h, if_neg h]
    exact helse h

theorem handle_begin_agree (hf : ErasedWordFlash board f) (hg : ErasedWordFlash board g)
    (h : Alike board state.session state.slots slots') :
    Agree board (handle_begin board f packet state)
      (handle_begin board g packet { state with slots := slots' }) := by
  unfold handle_begin
  refine agree_ite (fun _ => agree_idle h _) fun _ => ?_
  refine agree_ite (fun _ => agree_idle h _) fun hsize => ?_
  simp only [not_or, gt_iff_lt, UInt32.not_lt] at hsize
  have hs := beginSlot_valid state
  unfold beginSlot at hs
  have hfok := hf.erase_ok state.slots _ _ hs hsize.1 hsize.2
  have hgok := hg.erase_ok slots' _ _ hs hsize.1 hsize.2
  have hfbytes := hf.erase_bytes state.slots _ _ hfok
  have hgbytes := hg.erase_bytes slots' _ _ hgok
  dsimp only
  rw [if_neg (not_not.mpr hfok), if_neg (not_not.mpr hgok)]
  have hend : ∀ n : Nat, n ≤ wordEnd n := fun n => by unfold wordEnd; omega
  refine ⟨rfl, rfl, ?_, ?_⟩
  · intro i hi
    rw [hfbytes i (Nat.lt_of_lt_of_le hi (hend _)), hgbytes i (Nat.lt_of_lt_of_le hi (hend _))]
  · intro _
    have hle := UInt32.le_iff_toNat_le.mp hsize.2
    exact ⟨⟨hs, hle, Nat.zero_le _, fun i _ hi => hfbytes i hi⟩,
      ⟨hs, hle, Nat.zero_le _, fun i _ hi => hgbytes i hi⟩⟩

/-- A block that was received before meets the same bytes. -/
theorem blockMatches_congr {image image' : Image} {sequence : UInt32} {payload : List UInt8}
    {size : Nat} (h : ∀ i < size, image i = image' i)
    (hfits : sequence.toNat + payload.length ≤ size) (hsize : size < 2 ^ 32) :
    blockMatches image sequence payload = blockMatches image' sequence payload := by
  unfold blockMatches
  rw [Bool.eq_iff_iff, List.all_eq_true, List.all_eq_true]
  apply forall₂_congr
  intro k hk
  rw [List.mem_range] at hk
  have hk32 : k.toUInt32.toNat = k := UInt32.toNat_ofNat_of_lt' (by show k < 2 ^ 32; omega)
  have hsum : (sequence + k.toUInt32).toNat = sequence.toNat + k := by
    rw [UInt32.toNat_add, hk32]
    exact Nat.mod_eq_of_lt (by omega)
  rw [hsum, h _ (by omega)]

/-- A block over erased words: it stands in the slot afterwards, and what comes after
it is erased. -/
theorem write_prepared (hf : ErasedWordFlash board f) {session : BootUpdateSession} {slots : Slots}
    (hp : Prepared board session slots) (new : BlockNew session packet)
    (aligned : packet.sequence &&& 3 = 0) :
    (f.write_slot slots session.target_slot packet.sequence packet.payload).1 = .Ok ∧
      (∀ i < (APP_SLOT_SIZE board).toNat,
        (f.write_slot slots session.target_slot packet.sequence packet.payload).2.image
            session.target_slot i =
          copyBytes (slots.image session.target_slot) packet.sequence.toNat packet.payload i) ∧
      Prepared board
        { session with
          received_image_size := session.received_image_size + packet.payload_len.toUInt32 }
        (f.write_slot slots session.target_slot packet.sequence packet.payload).2 := by
  have hroom := new.room
  have hsize := hp.size_le
  have hmod := (flash_driver.aligned_iff _).mp aligned
  have hpages := flash_driver.slot_size_pages board
  have hseq := congrArg UInt32.toNat new.sequence
  have hok := hf.write_ok slots _ _ _ hp.target aligned
    (by omega : packet.sequence.toNat + packet.payload.length ≤ (APP_SLOT_SIZE board).toNat)
  have hin : ∀ i, i < packet.sequence.toNat + wordEnd packet.payload.length →
      i < wordEnd session.expected_image_size.toNat := by
    intro i hi
    unfold wordEnd at *
    omega
  have hbytes := hf.write_bytes slots _ _ _ hok fun i hi hlt => hp.erased i (by omega) (hin i hlt)
  have hreceived : (session.received_image_size + packet.payload_len.toUInt32).toNat =
      packet.sequence.toNat + packet.payload.length := by
    have hlt := session.expected_image_size.toNat_lt
    rw [UInt32.toNat_add, toNat_payload_len, ← hseq]
    exact Nat.mod_eq_of_lt (by omega)
  have hlast : ∀ i < wordEnd session.expected_image_size.toNat,
      i < (APP_SLOT_SIZE board).toNat := by
    intro i hi
    unfold wordEnd at hi
    omega
  refine ⟨hok, hbytes, hp.target, hsize, by dsimp only; omega, ?_⟩
  intro i hi hlt
  dsimp only at hi hlt ⊢
  rw [hbytes i (hlast i hlt), copyBytes, if_neg (by omega)]
  exact hp.erased i (by omega) hlt

/-- Both flashes hold the block afterwards. -/
theorem write_alike (hf : ErasedWordFlash board f) (hg : ErasedWordFlash board g)
    (h : Alike board state.session state.slots slots')
    (active : state.session.session_active = true) (new : BlockNew state.session packet)
    (aligned : packet.sequence &&& 3 = 0) :
    (f.write_slot state.slots state.session.target_slot packet.sequence packet.payload).1 = .Ok ∧
      (g.write_slot slots' state.session.target_slot packet.sequence packet.payload).1 = .Ok ∧
      Alike board
        { state.session with
          received_image_size :=
            state.session.received_image_size + packet.payload_len.toUInt32 }
        (f.write_slot state.slots state.session.target_slot packet.sequence packet.payload).2
        (g.write_slot slots' state.session.target_slot packet.sequence packet.payload).2 := by
  obtain ⟨hp, hp'⟩ := h.prepared active
  obtain ⟨hfok, hfbytes, hfp⟩ := write_prepared hf hp new aligned
  obtain ⟨hgok, hgbytes, hgp⟩ := write_prepared hg hp' new aligned
  have hsize := hp.size_le
  refine ⟨hfok, hgok, ?_, fun _ => ⟨hfp, hgp⟩⟩
  intro i hi
  dsimp only at hi ⊢
  rw [hfbytes i (by omega), hgbytes i (by omega)]
  unfold copyBytes
  split
  · rfl
  · exact h.bytes i hi

theorem handle_block_agree (hf : ErasedWordFlash board f) (hg : ErasedWordFlash board g)
    (h : Alike board state.session state.slots slots')
    (active : state.session.session_active = true)
    (aligned : BlockNew state.session packet → packet.sequence &&& 3 = 0) :
    Agree board (handle_block f packet state)
      (handle_block g packet { state with slots := slots' }) := by
  obtain ⟨hp, -⟩ := h.prepared active
  unfold handle_block
  dsimp only
  refine agree_ite (fun _ => agree_idle h _) fun hbounds => ?_
  obtain ⟨hnonempty, hroom⟩ := block_bounds hbounds
  refine agree_ite (fun _ => ?_) fun _ => ?_
  · -- a block that was received before leaves the state as it is
    have hmatch : blockMatches (state.slots.image state.session.target_slot) packet.sequence
          packet.payload =
        blockMatches (slots'.image state.session.target_slot) packet.sequence packet.payload :=
      blockMatches_congr h.bytes hroom (UInt32.toNat_lt _)
    refine agree_ite (fun _ => agree_idle h _) fun _ => ?_
    unfold boot_flash_slot_base
    rw [if_pos hp.target, if_pos hp.target]
    dsimp only
    rw [hmatch]
    exact agree_ite (fun _ => agree_idle h _) fun _ => agree_idle h _
  refine agree_ite (fun _ => agree_idle h _) fun hseq => ?_
  have new : BlockNew state.session packet := ⟨hnonempty, Decidable.not_not.mp hseq, hroom⟩
  obtain ⟨hfok, hgok, hnext⟩ := write_alike hf hg h active new (aligned new)
  rw [if_neg (not_not.mpr hfok), if_neg (not_not.mpr hgok)]
  exact ⟨rfl, rfl, hnext⟩

/-- The image check reads the bytes of the image only, so an image of the
announced size passes over both or over neither. -/
theorem validate_congr {image image' : Image} {capacity size : UInt32}
    (h : ∀ i < size.toNat, image i = image' i)
    (hv : (app_image_validate image capacity).status = .Valid)
    (hsize : (app_image_validate image capacity).image_size = size) :
    app_image_validate image' capacity = app_image_validate image capacity ∧
      ∀ board slot_start slot_end, vectorsAccepted board image' size slot_start slot_end ↔
        vectorsAccepted board image size slot_start slot_end := by
  have hmanifest := (app_image_validate_valid hv).1
  have hge := image_size_ge hv
  have hbytes : ∀ i < (manifestOf image).image_size.toNat, image i = image' i := by
    rw [← hmanifest, hsize]
    exact h
  have hm : manifestOf image' = manifestOf image :=
    (manifestOf_congr fun i hi => hbytes i (by omega)).symm
  have hword : ∀ i, i + 4 ≤ 0x240 → readWord image' i = readWord image i := fun i hi =>
    readWord_congr fun k hk => (hbytes (i + k) (by omega)).symm
  refine ⟨app_image_validate_congr hv hbytes, ?_⟩
  intro board slot_start slot_end
  unfold vectorsAccepted
  rw [hm, hword 0 (by omega), hword 4 (by omega)]

theorem handle_validate_agree (h : Alike board state.session state.slots slots')
    (active : state.session.session_active = true) :
    Agree board (handle_validate board state)
      (handle_validate board { state with slots := slots' }) := by
  obtain ⟨hp, -⟩ := h.prepared active
  obtain ⟨hstart, hend⟩ := slot_bounds board hp.target
  unfold handle_validate boot_flash_slot_base
  dsimp only
  rw [hstart, hend]
  split
  · exact agree_idle h _
  · rw [if_pos hp.target, if_pos hp.target]
    dsimp only
    by_cases hv : (app_image_validate (state.slots.image state.session.target_slot)
          (APP_SLOT_SIZE board)).status = .Valid ∧
        (app_image_validate (state.slots.image state.session.target_slot)
          (APP_SLOT_SIZE board)).image_size = state.session.expected_image_size
    · obtain ⟨hsame, hvectors⟩ := validate_congr h.bytes hv.1 hv.2
      rw [hsame]
      split
      · exact agree_idle h _
      · rw [hv.2]
        simp only [hvectors]
        split
        · exact agree_idle h _
        · exact ⟨rfl, rfl, h.keep rfl rfl rfl rfl⟩
    · have hv' : ¬ ((app_image_validate (slots'.image state.session.target_slot)
            (APP_SLOT_SIZE board)).status = .Valid ∧
          (app_image_validate (slots'.image state.session.target_slot)
            (APP_SLOT_SIZE board)).image_size = state.session.expected_image_size) := by
        rintro ⟨hvalid, hsize⟩
        have hsame := (validate_congr (fun i hi => (h.bytes i hi).symm) hvalid hsize).1
        exact hv ⟨by rw [hsame]; exact hvalid, by rw [hsame]; exact hsize⟩
      rw [if_pos (by rw [not_and_or] at hv; exact hv.imp_right Or.inl),
        if_pos (by rw [not_and_or] at hv'; exact hv'.imp_right Or.inl)]
      exact agree_idle h _

theorem handle_activate_agree (h : Alike board state.session state.slots slots') :
    Agree board (handle_activate save state)
      (handle_activate save { state with slots := slots' }) := by
  unfold handle_activate
  dsimp only
  refine agree_ite (fun _ => agree_idle h _) fun _ => ?_
  refine agree_ite (fun _ => ⟨rfl, rfl, h⟩) fun _ => ?_
  exact ⟨rfl, rfl, h.keep rfl rfl rfl rfl⟩

/-- One packet gives the same status over both flashes. -/
theorem process_agree (hf : ErasedWordFlash board f) (hg : ErasedWordFlash board g)
    (h : Alike board state.session state.slots slots')
    (aligned : BlockAligned state ⟨packet, save⟩) :
    Agree board (boot_update_session_process board f save packet state)
      (boot_update_session_process board g save packet { state with slots := slots' }) := by
  unfold boot_update_session_process
  dsimp only
  refine agree_ite (fun _ => agree_idle h _) fun hguard => ?_
  have session : command_requires_active_session packet.command → OfSession packet state := by
    intro hneeds
    have hown : ¬ (state.session.session_active = false ∨
        packet.session_id ≠ state.session.session_id) := fun hforeign => hguard ⟨hneeds, hforeign⟩
    simp only [not_or, Bool.not_eq_false, ne_eq, not_not] at hown
    exact ⟨hown.1, hown.2⟩
  -- one command after the other, as the source asks for them
  refine agree_ite (fun _ => agree_idle h _) fun _ => ?_
  refine agree_ite (fun _ => handle_begin_agree hf hg h) fun _ => ?_
  refine agree_ite (fun command => ?_) fun _ => ?_
  · have own := session (Or.inl command)
    exact handle_block_agree hf hg h own.active (aligned command own)
  refine agree_ite (fun _ => ?_) fun _ => ?_
  · refine agree_ite (fun _ => agree_idle h _) fun _ => ?_
    exact ⟨rfl, rfl, h.keep rfl rfl rfl rfl⟩
  refine agree_ite (fun command => ?_) fun _ => ?_
  · exact handle_validate_agree h (session (Or.inr (Or.inr (Or.inl command)))).active
  refine agree_ite (fun _ => handle_activate_agree h) fun _ => ?_
  refine agree_ite (fun _ => ?_) fun _ => agree_idle h _
  exact ⟨rfl, rfl, fun i hi => absurd hi (Nat.not_lt_zero i), nofun⟩

/-- A block that is not aligned: the mock stores it. -/
theorem mock_block_status (h : Prepared board state.session state.slots)
    (command : packet.command = UPDATE_CMD_BLOCK) (own : OfSession packet state)
    (new : BlockNew state.session packet) :
    (boot_update_session_process board (mockFlash board .Ok) save packet state).1 = .Ok := by
  have hroom := new.room
  have hsize := h.size_le
  have hwrite := mock_write_ok board state.slots h.target
    (by omega : packet.sequence.toNat + packet.payload.length ≤ (APP_SLOT_SIZE board).toNat)
  rw [process_block_new command own new (by rw [hwrite])]

/-- A block that is not aligned: a flash that refuses it fails the packet. -/
theorem refused_block_status (command : packet.command = UPDATE_CMD_BLOCK)
    (own : OfSession packet state) (new : BlockNew state.session packet)
    (refused : (g.write_slot state.slots state.session.target_slot packet.sequence
      packet.payload).1 ≠ .Ok) :
    (boot_update_session_process board g save packet state).1 = .FlashError := by
  have hbounds := block_in_bounds new.nonempty new.room
  have hnew : ¬ packet.sequence < state.session.received_image_size := by
    rw [new.sequence]
    exact UInt32.lt_irrefl _
  rw [process_block command own]
  unfold handle_block
  dsimp only
  rw [if_neg hbounds, if_neg hnew, if_neg (not_not.mpr new.sequence), if_pos refused]

end

/-- The session over the mock and the session over a driver stay together up to
the first block that is not aligned, and part there. -/
theorem sessions_simulate (board : Board) (controller : flash_driver.FlashController)
    (hunlocks : controller.unlocks = true) (hready : ∀ wait, controller.ready wait = true) :
    SimulatesWhile (sessionStep board (mockFlash board .Ok))
      (sessionStep board (flash_driver.slotDriver board controller)) BlockAligned Eq
      (Together board) Eq := by
  have hf := mock_erasedWordFlash board
  have hg := driver_erasedWordFlash board controller hunlocks hready
  constructor
  · rintro state state' input _ ⟨same, alike⟩ rfl aligned
    generalize state'.slots = slots' at same alike
    subst same
    exact (process_agree hf hg alike aligned).1
  · rintro state state' input _ ⟨same, alike⟩ rfl aligned
    generalize state'.slots = slots' at same alike
    subst same
    exact (process_agree hf hg alike aligned).2
  · rintro state state' input _ ⟨same, alike⟩ rfl unaligned heq
    generalize state'.slots = slots' at same alike
    subst same
    simp only [BlockAligned, not_forall] at unaligned
    obtain ⟨command, own, new, h3⟩ := unaligned
    have hmock := @mock_block_status board input.packet input.save state
      (alike.prepared own.active).1 command own new
    have hdriver := @refused_block_status board (flash_driver.slotDriver board controller)
      input.packet input.save { state with slots := slots' } command
      ⟨own.active, own.session_id⟩ new (driver_write_unaligned board controller slots' h3)
    exact absurd (hmock.symm.trans (heq.trans hdriver)) (by decide)

/-- A session before its first packet. -/
def started (copies : Copies) (slots : Slots) : UpdateState where
  session := boot_update_session_init
  copies := copies
  slots := slots
  saves := []
  flash_calls := []

/-- Whatever the slots hold before, the sessions start together. -/
theorem started_together (board : Board) (copies : Copies) (slots slots' : Slots) :
    Together board (started copies slots) (started copies slots') :=
  ⟨rfl, fun i hi => absurd hi (Nat.not_lt_zero i), nofun⟩

section
variable (board : Board) (controller : flash_driver.FlashController)
  (hunlocks : controller.unlocks = true) (hready : ∀ wait, controller.ready wait = true)
  (copies : Copies) (slots slots' : Slots) (inputs : List Input)

include hunlocks hready

/-- The statuses are the same exactly in the runs that write aligned blocks only. -/
theorem statuses_iff :
    outputs (sessionStep board (mockFlash board .Ok)) (started copies slots) inputs =
        outputs (sessionStep board (flash_driver.slotDriver board controller))
          (started copies slots') inputs ↔
      Along (sessionStep board (mockFlash board .Ok)) BlockAligned (started copies slots)
        inputs := by
  have hiff := (sessions_simulate board controller hunlocks hready).outputs_iff
    (List.forall₂_refl inputs) (started_together board copies slots slots')
  rwa [List.forall₂_eq_eq_eq] at hiff

/-- Packets that make the session write aligned blocks only have the same
statuses over the mock and over the driver, and leave the same image in the
target slot. Any other row of packets has a status that differs. -/
theorem mock_interchangeable :
    (outputs (sessionStep board (mockFlash board .Ok)) (started copies slots) inputs =
        outputs (sessionStep board (flash_driver.slotDriver board controller))
          (started copies slots') inputs ↔
      Along (sessionStep board (mockFlash board .Ok)) BlockAligned (started copies slots)
        inputs) ∧
    (Along (sessionStep board (mockFlash board .Ok)) BlockAligned (started copies slots) inputs →
      let over_mock := final (sessionStep board (mockFlash board .Ok)) (started copies slots) inputs
      let over_driver := final (sessionStep board (flash_driver.slotDriver board controller))
        (started copies slots') inputs
      over_driver.session = over_mock.session ∧
        ∀ i < over_mock.session.expected_image_size.toNat,
          over_mock.slots.image over_mock.session.target_slot i =
            over_driver.slots.image over_driver.session.target_slot i) := by
  refine ⟨statuses_iff board controller hunlocks hready copies slots slots' inputs, ?_⟩
  intro halong
  dsimp only
  obtain ⟨same, alike⟩ := (sessions_simulate board controller hunlocks hready).final
    (List.forall₂_refl inputs) (started_together board copies slots slots') halong
  have hsession := congrArg UpdateState.session same
  refine ⟨hsession, ?_⟩
  intro i hi
  rw [hsession]
  exact alike.bytes i hi

end

/-! ## Three bytes of eight -/

/-- A BEGIN that announces eight bytes. -/
def beginEight : Input where
  packet :=
    { command := UPDATE_CMD_BEGIN
      flags := 0
      payload_len := 8
      session_id := 1
      sequence := 0
      payload := [8, 0, 0, 0, 0, 0, 0, 0]
      length_payload := rfl }
  save := .Completes

def firstThree : Input where
  packet :=
    { command := UPDATE_CMD_BLOCK
      flags := 0
      payload_len := 3
      session_id := 1
      sequence := 0
      payload := [0x11, 0x22, 0x33]
      length_payload := rfl }
  save := .Completes

/-- The next byte. Its sequence is not a multiple of four. -/
def fourth : Input where
  packet :=
    { command := UPDATE_CMD_BLOCK
      flags := 0
      payload_len := 1
      session_id := 1
      sequence := 3
      payload := [0x44]
      length_payload := rfl }
  save := .Completes

section
variable (board : Board) (copies : Copies) (slots : Slots)

theorem beginEight_session :
    (sessionStep board (mockFlash board .Ok) (started copies slots) beginEight).2.session =
      boot_update_session_init.begun beginEight.packet (beginSlot (started copies slots)) := by
  have accepted : BeginAccepted board beginEight.packet := by
    cases board <;> exact ⟨rfl, by decide, by decide⟩
  have erased := (mock_erasedWordFlash board).erase_ok slots (beginSlot (started copies slots)) _
    (beginSlot_valid _) accepted.2.1 accepted.2.2
  have hprocess := @process_begin board (mockFlash board .Ok) beginEight.save beginEight.packet
    (started copies slots) rfl accepted erased
  exact congrArg (fun result => result.2.session) hprocess

/-- The session writes the three bytes and has the fourth one to write next. -/
theorem firstThree_session {state : UpdateState}
    (h : state.session = boot_update_session_init.begun beginEight.packet
      (beginSlot (started copies slots))) :
    (sessionStep board (mockFlash board .Ok) state firstThree).2.session =
      { state.session with received_image_size := 3 } := by
  have own : OfSession firstThree.packet state := by
    constructor <;> rw [h] <;> rfl
  have new : BlockNew state.session firstThree.packet := by
    rw [h]
    exact ⟨by decide, rfl, by show 0 + 3 ≤ (8 : UInt32).toNat; decide⟩
  have target : slot_is_valid state.session.target_slot := by
    rw [h]
    exact beginSlot_valid _
  have written := mock_write_ok board state.slots target
    (by cases board <;> decide :
      firstThree.packet.sequence.toNat + firstThree.packet.payload.length ≤
        (APP_SLOT_SIZE board).toNat)
  have hreceived : state.session.received_image_size = 0 := by rw [h]; rfl
  have hprocess := @process_block_new board (mockFlash board .Ok) firstThree.save
    firstThree.packet state rfl own new (congrArg Prod.fst written)
  have hsession := congrArg (fun result => result.2.session) hprocess
  refine hsession.trans ?_
  simp only [hreceived]
  rfl

/-- The block at the fourth byte is one that the session writes and not aligned. -/
theorem fourth_unaligned {state : UpdateState}
    (h : state.session = { boot_update_session_init.begun beginEight.packet
      (beginSlot (started copies slots)) with received_image_size := 3 }) :
    ¬ BlockAligned state fourth := by
  intro aligned
  have own : OfSession fourth.packet state := by
    constructor <;> rw [h] <;> rfl
  have new : BlockNew state.session fourth.packet := by
    rw [h]
    exact ⟨by decide, rfl, by show 3 + 1 ≤ (8 : UInt32).toNat; decide⟩
  exact absurd (aligned rfl own new) (by decide)

theorem fourth_not_along :
    ¬ Along (sessionStep board (mockFlash board .Ok)) BlockAligned (started copies slots)
      [beginEight, firstThree, fourth] := by
  rintro ⟨-, -, hfourth, -⟩
  have hbegin := beginEight_session board copies slots
  have hthree := firstThree_session board copies slots hbegin
  rw [hbegin] at hthree
  exact fourth_unaligned copies slots hthree hfourth

end

/-- Over the mock the fourth byte is accepted, over both drivers it is not. -/
theorem fourth_byte_differs :
    outputs (sessionStep .L152 (mockFlash .L152 .Ok))
        (started erasedCopies ⟨fun _ => 0, fun _ => 0⟩) [beginEight, firstThree, fourth] ≠
      outputs (sessionStep .L152 (flash_driver.slotDriver .L152 flash_driver.readyController))
        (started erasedCopies ⟨fun _ => 0, fun _ => 0⟩) [beginEight, firstThree, fourth] ∧
    outputs (sessionStep .F446 (mockFlash .F446 .Ok))
        (started erasedCopies ⟨fun _ => 0, fun _ => 0⟩) [beginEight, firstThree, fourth] ≠
      outputs (sessionStep .F446 (flash_driver.slotDriver .F446 flash_driver.readyController))
        (started erasedCopies ⟨fun _ => 0, fun _ => 0⟩) [beginEight, firstThree, fourth] := by
  have hdiffers : ∀ board, outputs (sessionStep board (mockFlash board .Ok))
        (started erasedCopies ⟨fun _ => 0, fun _ => 0⟩) [beginEight, firstThree, fourth] ≠
      outputs (sessionStep board (flash_driver.slotDriver board flash_driver.readyController))
        (started erasedCopies ⟨fun _ => 0, fun _ => 0⟩) [beginEight, firstThree, fourth] := by
    intro board heq
    exact fourth_not_along board _ _
      ((statuses_iff board flash_driver.readyController rfl (fun _ => rfl) _ _ _ _).mp heq)
  exact ⟨hdiffers .L152, hdiffers .F446⟩

/-- The BEGIN and the first three bytes, whose word is not full: the statuses are
the same. -/
theorem mock_interchangeable_three :
    outputs (sessionStep .F446 (mockFlash .F446 .Ok))
        (started erasedCopies ⟨fun _ => 0, fun _ => 0⟩) [beginEight, firstThree] =
      outputs (sessionStep .F446 (flash_driver.slotDriver .F446 flash_driver.readyController))
        (started erasedCopies ⟨fun _ => 1, fun _ => 1⟩) [beginEight, firstThree] := by
  apply (mock_interchangeable .F446 flash_driver.readyController rfl (fun _ => rfl) erasedCopies
    ⟨fun _ => 0, fun _ => 0⟩ ⟨fun _ => 1, fun _ => 1⟩ [beginEight, firstThree]).1.mpr
  refine ⟨?_, ?_, trivial⟩
  · intro command
    exact absurd command (by decide)
  · intro _ _ _
    rfl

end stm32_vibe.boot_flash_mock
