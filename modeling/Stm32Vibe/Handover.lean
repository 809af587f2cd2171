-- What holds when `main` jumps: the image in the slot was checked, the stack
-- pointer and the reset address are inside their bounds, and the handoff
-- record in the RAM names the slot, whatever the relocation wrote.
import Stm32Vibe.BootMain
import Stm32Vibe.FinalizeImage

namespace stm32_vibe.handover

open little_endian boot_state boot_policy boot_state_store app_image boot_runtime boot_main

/-! ## The map of the shared RAM -/

/-- The GOT ends before the vectors, and the vectors end at the handoff record. -/
theorem shared_ram (board : Board) :
    (BOOT_RUNTIME_GOT_ADDR board).toNat + 1024 = (BOOT_RUNTIME_VECTOR_ADDR board).toNat ∧
      (BOOT_RUNTIME_VECTOR_ADDR board).toNat + 512 = (BOOT_HANDOFF_ADDR board).toNat := by
  cases board <;> decide

theorem got_le_ram_end (board : Board) : BOOT_RUNTIME_GOT_ADDR board ≤ RAM_END_ADDR board := by
  cases board <;> decide

/-- A slot starts at an even address, and no address of it wraps. -/
theorem slot_base_room (board : Board) (slot : UInt32) :
    (slot_base board slot).toNat % 2 = 0 ∧
      (slot_base board slot).toNat + (APP_SLOT_SIZE board).toNat < 2 ^ 32 := by
  unfold slot_base
  split <;> cases board <;> decide

/-! ## The prepared RAM -/

section
variable {board : Board} {slots : Slots} {candidate : BootCandidate} {last : BootStateRecord}

/-- The fields of the record that `prepare_boot_handoff` writes. -/
def handoffFields (board : Board) (slots : Slots) (candidate : BootCandidate)
    (last : BootStateRecord) : BootHandoff where
  magic := BOOT_HANDOFF_MAGIC
  version := BOOT_HANDOFF_VERSION
  size := HANDOFF_SIZE
  image_base := candidate.image_base
  image_size := (app_image_validate (slots.image candidate.slot) (APP_SLOT_SIZE board)).image_size
  slot := candidate.slot
  state := if candidate.boot_pending then BOOT_HANDOFF_PENDING else BOOT_HANDOFF_CONFIRMED
  boot_attempt := if candidate.boot_pending then last.pending_attempts else 0
  crc32 := 0

/-- The words that the relocation may use fit their buffers. -/
theorem relocation_room (hr : app_manifest_is_relocatable (manifestOf (slots.image candidate.slot)))
    (h : RelocationAccepted slots candidate.slot) :
    2 ≤ (app_manifest_vector_words (manifestOf (slots.image candidate.slot))).toNat ∧
      (app_manifest_vector_words (manifestOf (slots.image candidate.slot))).toNat ≤ 128 ∧
      (app_manifest_got_size (manifestOf (slots.image candidate.slot)) / 4).toNat ≤ 256 := by
  have hgot := (h hr).1.2
  simp only [not_or, gt_iff_lt, UInt32.not_lt] at hgot
  exact ⟨UInt32.le_iff_toNat_le.mp hr.1, UInt32.le_iff_toNat_le.mp hr.2,
    UInt32.le_iff_toNat_le.mp hgot.1⟩

/-- The handoff record survives the relocation. -/
theorem prepared_handoff (h : RelocationAccepted slots candidate.slot) (ram : Ram) :
    boot_handoff_shared board (preparedRam board slots candidate last ram) =
      boot_handoff_update_crc (handoffFields board slots candidate last) := by
  obtain ⟨hgot, hvectors⟩ := shared_ram board
  apply shared_of_agree board ram
  intro address hlow hhigh
  by_cases hr : app_manifest_is_relocatable (manifestOf (slots.image candidate.slot))
  · obtain ⟨h2, h128, h256⟩ := relocation_room hr h
    rw [preparedRam_relocatable hr]
    unfold prepare_relocatable_runtime
    rw [relocate_frame _ _ _ _ _ _ _ _ _ _ _ _ (by omega) (by omega)]
    rfl
  · rw [preparedRam_absolute hr]
    rfl

/-- The first two vectors of the prepared RAM are those of the image, the
second one with the base of the slot added. -/
theorem prepared_vectors
    (hr : app_manifest_is_relocatable (manifestOf (slots.image candidate.slot)))
    (h : RelocationAccepted slots candidate.slot) (ram : Ram) :
    let vectors := (BOOT_RUNTIME_VECTOR_ADDR board).toNat
    let ram' := preparedRam board slots candidate last ram
    ram' vectors = readWord (slots.image candidate.slot) 0 ∧
      ram' (vectors + 4) =
        relocated candidate.image_base (readWord (slots.image candidate.slot) 4) := by
  obtain ⟨hgot, hvectors⟩ := shared_ram board
  obtain ⟨h2, h128, h256⟩ := relocation_room hr h
  rw [preparedRam_relocatable hr]
  exact relocate_vectors _ _ _ _ _ _ _ _ _ _ _ ((prepare_relocatable_ok hr _ _).mpr h)
    (by omega) h2

end

/-! ## The jump -/

/-- What a jump from the loaded record `state` guarantees. -/
structure HandedOver (board : Board) (slots : Slots) (state : BootStateRecord)
    (candidate : BootCandidate) (stack_pointer reset_handler : UInt32) (ram : Ram) : Prop where
  image : (app_image_validate (slots.image candidate.slot) (APP_SLOT_SIZE board)).status = .Valid
  stack_aligned : stack_pointer &&& 7 = 0
  stack_in_ram : RAM_START_ADDR ≤ stack_pointer ∧ stack_pointer ≤ RAM_END_ADDR board
  stack_below_got : app_manifest_is_relocatable (manifestOf (slots.image candidate.slot)) →
    stack_pointer ≤ BOOT_RUNTIME_GOT_ADDR board
  thumb : reset_handler &&& 1 ≠ 0
  reset_in_image : app_manifest_is_relocatable (manifestOf (slots.image candidate.slot)) →
    (slot_base board candidate.slot).toNat ≤ (reset_handler &&& ~~~1).toNat ∧
      (reset_handler &&& ~~~1).toNat < (slot_base board candidate.slot).toNat +
        (app_image_validate (slots.image candidate.slot) (APP_SLOT_SIZE board)).image_size.toNat
  reset_in_slot : ¬ app_manifest_is_relocatable (manifestOf (slots.image candidate.slot)) →
    slot_base board candidate.slot ≤ reset_handler &&& ~~~1 ∧
      reset_handler &&& ~~~1 < slot_end board candidate.slot
  handoff_valid : boot_handoff_is_valid (boot_handoff_shared board ram)
  handoff_slot : (boot_handoff_shared board ram).slot = candidate.slot
  handoff_base : (boot_handoff_shared board ram).image_base = slot_base board candidate.slot
  handoff_size : (boot_handoff_shared board ram).image_size =
    (app_image_validate (slots.image candidate.slot) (APP_SLOT_SIZE board)).image_size
  handoff_pending : (boot_handoff_shared board ram).state =
    if candidate.boot_pending then BOOT_HANDOFF_PENDING else BOOT_HANDOFF_CONFIRMED
  handoff_attempt : (boot_handoff_shared board ram).boot_attempt =
    if candidate.boot_pending then state.pending_attempts + 1 else 0
  pending_slot : candidate.boot_pending → candidate.slot = state.pending_slot
  active_slot : ¬ candidate.boot_pending → candidate.slot = state.active_slot

section
variable {board : Board} {slots : Slots} {slot : UInt32}

/-- A relocated reset address lies inside the image. -/
theorem reset_in_image (hi : ImageAccepted board slots slot)
    (hr : app_manifest_is_relocatable (manifestOf (slots.image slot)))
    (hv : VectorsAccepted board slots slot) :
    let reset := relocated (slot_base board slot) (readWord (slots.image slot) 4)
    reset &&& 1 ≠ 0 ∧ (slot_base board slot).toNat ≤ (reset &&& ~~~1).toNat ∧
      (reset &&& ~~~1).toNat <
        (slot_base board slot).toNat + (manifestOf (slots.image slot)).image_size.toNat := by
  have hsize := (app_image_validate_iff _ _ |>.mp hi).size_le
  unfold VectorsAccepted vectorsAccepted at hv
  rw [if_pos hr] at hv
  obtain ⟨-, hthumb, hlt⟩ := hv
  obtain ⟨heven, hroom⟩ := slot_base_room board slot
  rw [gt_iff_lt, UInt32.not_lt, UInt32.le_iff_toNat_le] at hsize
  rw [thumb_iff] at hthumb
  rw [UInt32.lt_iff_toNat_lt, clear_thumb] at hlt
  -- the word is odd and below the size, so it is not one of the unused vectors
  have hused : ¬ (readWord (slots.image slot) 4 = 0 ∨
      readWord (slots.image slot) 4 = UNUSED_VECTOR) := by
    rintro (h | h)
    · rw [h] at hthumb; exact absurd hthumb (by decide)
    · have hcap : (APP_SLOT_SIZE board).toNat < UNUSED_VECTOR.toNat / 2 * 2 := by
        cases board <;> decide
      rw [h] at hlt
      omega
  have hsum : (slot_base board slot + readWord (slots.image slot) 4).toNat =
      (slot_base board slot).toNat + (readWord (slots.image slot) 4).toNat := by
    rw [UInt32.toNat_add]
    exact Nat.mod_eq_of_lt (by omega)
  unfold relocated
  rw [if_neg hused]
  simp only [thumb_iff, clear_thumb, hsum]
  omega

theorem handoff_valid {candidate : BootCandidate} (hs : slot_is_valid candidate.slot)
    (hi : ImageAccepted board slots candidate.slot) (last : BootStateRecord) :
    boot_handoff_is_valid
      (boot_handoff_update_crc (handoffFields board slots candidate last)) := by
  have hsize : (app_image_validate (slots.image candidate.slot) (APP_SLOT_SIZE board)).image_size ≠
      0 := by
    have hge := (app_image_validate_iff _ _ |>.mp hi).size_ge
    rw [accepted_image_size hi]
    intro h
    rw [h] at hge
    exact hge (by decide)
  have hslot : ¬ (candidate.slot ≠ 0 ∧ candidate.slot ≠ 1) := by
    rcases hs with h | h <;> rw [h] <;> decide
  refine ⟨?_, handoff_update_crc_crc _⟩
  obtain ⟨crc, he⟩ := handoff_update_crc_eq (handoffFields board slots candidate last)
  rw [he]
  unfold handoffFields
  cases candidate.boot_pending <;> simp [hsize, hslot]

/-- The fields of the handoff record that the application finds. -/
theorem handoff_fields (candidate : BootCandidate) (last : BootStateRecord) :
    let handoff := boot_handoff_update_crc (handoffFields board slots candidate last)
    handoff.slot = candidate.slot ∧ handoff.image_base = candidate.image_base ∧
      handoff.image_size =
        (app_image_validate (slots.image candidate.slot) (APP_SLOT_SIZE board)).image_size ∧
      handoff.state =
        (if candidate.boot_pending then BOOT_HANDOFF_PENDING else BOOT_HANDOFF_CONFIRMED) ∧
      handoff.boot_attempt = if candidate.boot_pending then last.pending_attempts else 0 := by
  obtain ⟨crc, he⟩ := handoff_update_crc_eq (handoffFields board slots candidate last)
  rw [he]
  exact ⟨rfl, rfl, rfl, rfl, rfl⟩

end

/-- The candidate of a path is the pending slot with one attempt more, or the
active slot. -/
theorem path_candidate {board : Board} {slots : Slots} {state : BootStateRecord}
    {candidate : BootCandidate} {last : BootStateRecord} {saved : List BootStateRecord}
    (path : BootPath board slots state candidate last saved) :
    (candidate.boot_pending = true ∧ candidate.slot = state.pending_slot ∧
        last.pending_attempts = state.pending_attempts + 1) ∨
      (candidate.boot_pending = false ∧ candidate.slot = state.active_slot) := by
  cases path with
  | trial due accepted => exact Or.inl ⟨rfl, rfl, countAttempt_attempts state⟩
  | exhausted exhausted => exact Or.inr ⟨rfl, rfl⟩
  | active not_exhausted not_due => exact Or.inr ⟨rfl, rfl⟩
  | fallback due rejected => exact Or.inr ⟨rfl, rfl⟩

/-- The registers of a jump are inside their bounds. -/
theorem registers_of_jump {board : Board} {slots : Slots} {candidate jumped : BootCandidate}
    {last : BootStateRecord} {ram : Ram}
    {vector_base stack_pointer reset_handler got_base : UInt32}
    (hc : candidate = candidateFor board candidate.slot candidate.boot_pending)
    (hb : Bootable board slots candidate.slot)
    (hj : jumpTo board slots candidate (preparedRam board slots candidate last ram) =
      .Jump jumped vector_base stack_pointer reset_handler got_base) :
    stack_pointer = readWord (slots.image candidate.slot) 0 ∧
      reset_handler =
        if app_manifest_is_relocatable (manifestOf (slots.image candidate.slot)) then
          relocated (slot_base board candidate.slot) (readWord (slots.image candidate.slot) 4)
        else readWord (slots.image candidate.slot) 4 := by
  by_cases hr : app_manifest_is_relocatable (manifestOf (slots.image candidate.slot))
  · obtain ⟨h0, h4⟩ := @prepared_vectors board slots candidate last hr hb.relocation ram
    rw [jumpTo_relocatable hr] at hj
    injection hj with _ _ hsp hreset _
    have hbase : candidate.image_base = slot_base board candidate.slot := by rw [hc]; rfl
    rw [if_pos hr, ← hsp, ← hreset, h0, h4, hbase]
    exact ⟨rfl, rfl⟩
  · rw [jumpTo_absolute hr] at hj
    injection hj with _ _ hsp hreset _
    rw [if_neg hr, ← hsp, ← hreset]
    exact ⟨rfl, rfl⟩

/-- The stack pointer of an accepted image. -/
theorem stack_of_vectors {board : Board} {slots : Slots} {slot : UInt32}
    (hv : VectorsAccepted board slots slot) :
    let stack_pointer := readWord (slots.image slot) 0
    stack_pointer &&& 7 = 0 ∧
      (RAM_START_ADDR ≤ stack_pointer ∧ stack_pointer ≤ RAM_END_ADDR board) ∧
      (app_manifest_is_relocatable (manifestOf (slots.image slot)) →
        stack_pointer ≤ BOOT_RUNTIME_GOT_ADDR board) := by
  unfold VectorsAccepted vectorsAccepted at hv
  split at hv
  · obtain ⟨hstack, -⟩ := hv
    simp only [not_or, ne_eq, Decidable.not_not, gt_iff_lt, UInt32.not_lt] at hstack
    exact ⟨hstack.2.2, ⟨hstack.1, UInt32.le_trans hstack.2.1 (got_le_ram_end board)⟩,
      fun _ => hstack.2.1⟩
  · rename_i hr
    obtain ⟨hstack, -⟩ := hv
    simp only [not_or, ne_eq, Decidable.not_not, gt_iff_lt, UInt32.not_lt] at hstack
    exact ⟨hstack.2.2, ⟨hstack.1, hstack.2.1⟩, fun h => absurd h hr⟩

/-- Every run of `main` that jumps hands over a checked image. -/
theorem jump_is_handed_over (board : Board) (traffic : Bool) (count_save bad_save : SaveOutcome)
    (slots : Slots) (copies : Copies) (ram : Ram) {candidate : BootCandidate}
    {vector_base stack_pointer reset_handler got_base : UInt32}
    (h : (main board traffic count_save bad_save slots copies ram).1 =
      .Jump candidate vector_base stack_pointer reset_handler got_base) :
    HandedOver board slots (boot_state_store_load copies) candidate stack_pointer reset_handler
      (main board traffic count_save bad_save slots copies ram).2.ram := by
  obtain ⟨last, saved, hj⟩ := jumps_of_main h
  rw [main_of_jumps hj] at h ⊢
  obtain ⟨hslot, hc⟩ := bootPath_candidate (load_inRange copies) hj.path
  have hb := hj.bootable
  obtain ⟨hsp, hreset⟩ := registers_of_jump hc hb h
  have hbase : candidate.image_base = slot_base board candidate.slot := by rw [hc]; rfl
  obtain ⟨fslot, fbase, fsize, fstate, fattempt⟩ := @handoff_fields board slots candidate last
  have hshared := @prepared_handoff board slots candidate last hb.relocation ram
  obtain ⟨haligned, hram, hgot⟩ := stack_of_vectors hb.vectors
  have hcand := path_candidate hj.path
  have hv := hb.vectors
  unfold VectorsAccepted vectorsAccepted at hv
  constructor
  case image => exact hb.image
  case stack_aligned => rw [hsp]; exact haligned
  case stack_in_ram => rw [hsp]; exact hram
  case stack_below_got => rw [hsp]; exact hgot
  case thumb =>
    by_cases hr : app_manifest_is_relocatable (manifestOf (slots.image candidate.slot))
    · rw [hreset, if_pos hr]
      exact (reset_in_image hb.image hr hb.vectors).1
    · rw [if_neg hr] at hv
      rw [hreset, if_neg hr]
      exact hv.2.1
  case reset_in_image =>
    intro hr
    rw [hreset, if_pos hr, accepted_image_size hb.image]
    exact (reset_in_image hb.image hr hb.vectors).2
  case reset_in_slot =>
    intro hr
    rw [if_neg hr] at hv
    rw [hreset, if_neg hr]
    exact hv.2.2
  case handoff_valid => dsimp only; rw [hshared]; exact handoff_valid hslot hb.image last
  case handoff_slot => dsimp only; rw [hshared]; exact fslot
  case handoff_base => dsimp only; rw [hshared, ← hbase]; exact fbase
  case handoff_size => dsimp only; rw [hshared]; exact fsize
  case handoff_pending => dsimp only; rw [hshared]; exact fstate
  case handoff_attempt =>
    dsimp only
    rw [hshared, fattempt]
    rcases hcand with ⟨hp, -, hlast⟩ | ⟨hp, -⟩
    · rw [hp, hlast]
    · rw [hp]; rfl
  case pending_slot =>
    intro hp
    rcases hcand with ⟨-, hs, -⟩ | ⟨hn, -⟩
    · exact hs
    · rw [hn] at hp; cases hp
  case active_slot =>
    intro hp
    rcases hcand with ⟨hn, -⟩ | ⟨-, hs⟩
    · exact absurd hn hp
    · exact hs

/-! ## A run that jumps -/

theorem small_bootable {board : Board} {slots : Slots} {slot : UInt32}
    (h : little_endian.Holds (slots.image slot) (finalize_image.smallBinary 0 2)) :
    Bootable board slots slot := by
  obtain ⟨hsize, hwords, hoffset, hgot⟩ := finalize_image.small_manifest h (by decide)
  obtain ⟨-, h4, -⟩ := finalize_image.small_vectors h (by decide)
  refine ⟨finalize_image.small_valid h (by decide) (by cases board <;> decide), ?_, ?_⟩
  · unfold VectorsAccepted
    rw [hsize]
    exact finalize_image.small_vectorsAccepted h (by decide) (by decide) _ _ _
  · intro _
    rw [hsize, hwords, hoffset, hgot]
    refine ⟨by decide, ?_⟩
    intro index h1 h2
    have hone : index = 1 := by
      have : ((2 : Nat).toUInt32).toNat = 2 := by decide
      omega
    rw [hone, h4]
    decide

/-- Both slots hold the small image. -/
def smallSlots : Slots where
  a := imageOf (finalize_image.smallBinary 0 2)
  b := imageOf (finalize_image.smallBinary 0 2)

theorem smallSlots_holds (slot : UInt32) :
    little_endian.Holds (smallSlots.image slot) (finalize_image.smallBinary 0 2) := by
  have hslot : smallSlots.image slot = imageOf (finalize_image.smallBinary 0 2) := by
    unfold smallSlots Slots.image
    generalize finalize_image.smallBinary 0 2 = binary
    exact ite_self _
  rw [hslot]
  generalize finalize_image.smallBinary 0 2 = binary
  exact imageOf_holds binary

/-- A device that was shipped with a confirmed image in slot A boots it. -/
theorem small_jumps : Jumps .F446 false .Completes .Completes smallSlots
    (image_for_mode .ConfirmedA) (fun _ => 0) (candidateFor .F446 BOOT_SLOT_A false)
    (recordForMode .ConfirmedA) [] := by
  have hp := recordForMode_pending_slot .ConfirmedA
  have ha : (recordForMode .ConfirmedA).active_slot = BOOT_SLOT_A := by
    simp [recordForMode, build_record_eq]
  refine ⟨zero_ne_magic, rfl, ?_, ⟨fun _ => rfl, fun _ => rfl⟩, small_bootable (smallSlots_holds _)⟩
  rw [load_image_for_mode]
  have path := @BootPath.active .F446 smallSlots (recordForMode .ConfirmedA) (fun h => h.1 hp)
    fun h => h.1 hp
  rw [ha] at path
  exact path

theorem small_run : (main .F446 false .Completes .Completes smallSlots
      (image_for_mode .ConfirmedA) (fun _ => 0)).1 =
    .Jump (candidateFor .F446 BOOT_SLOT_A false) 0x2001FC00 0x20000000 0x08020001 0x2001F800 := by
  have hb := small_jumps.bootable
  obtain ⟨-, hwords, -⟩ := finalize_image.small_manifest (smallSlots_holds BOOT_SLOT_A) (by decide)
  obtain ⟨h0, h4, -⟩ := finalize_image.small_vectors (smallSlots_holds BOOT_SLOT_A) (by decide)
  have hr : app_manifest_is_relocatable (manifestOf (smallSlots.image
      (candidateFor .F446 BOOT_SLOT_A false).slot)) := by
    unfold app_manifest_is_relocatable
    rw [show (candidateFor .F446 BOOT_SLOT_A false).slot = BOOT_SLOT_A from rfl, hwords]
    decide
  obtain ⟨hsp, hreset⟩ := @prepared_vectors .F446 smallSlots
    (candidateFor .F446 BOOT_SLOT_A false) (recordForMode .ConfirmedA) hr hb.relocation fun _ => 0
  rw [main_of_jumps small_jumps, jumpTo_relocatable hr, hsp, hreset]
  change BootEnd.Jump _ _ (readWord (smallSlots.image BOOT_SLOT_A) 0)
    (relocated _ (readWord (smallSlots.image BOOT_SLOT_A) 4)) _ = _
  rw [h0, h4]
  rfl

theorem jump_is_handed_over_small :
    HandedOver .F446 smallSlots (boot_state_store_load (image_for_mode .ConfirmedA))
      (candidateFor .F446 BOOT_SLOT_A false) 0x20000000 0x08020001
      (main .F446 false .Completes .Completes smallSlots (image_for_mode .ConfirmedA)
        (fun _ => 0)).2.ram :=
  jump_is_handed_over .F446 false .Completes .Completes smallSlots (image_for_mode .ConfirmedA)
    (fun _ => 0) small_run

end stm32_vibe.handover
