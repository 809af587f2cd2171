-- The check of a download against the check of a boot: what VALIDATE has not
-- looked at when `main` relocates the image.
import Stm32Vibe.Rollback
import Stm32Vibe.TransferLaws
import Stm32Vibe.TrialBoots

namespace stm32_vibe.download_check

open little_endian boot_state boot_policy boot_state_store app_image boot_runtime boot_flash
  update_protocol update_session at_least_once finalize_image uart_update repeated_update
  transfer_laws boot_main handover rollback

/-! ## What only the boot checks -/

/-- For a relocatable image, the bounds of the GOT and the vectors after the
first two. -/
def LaterChecks (image : Image) : Prop :=
  let manifest := manifestOf image
  app_manifest_is_relocatable manifest →
    app_manifest_got_offset manifest &&& 3 = 0 ∧ app_manifest_got_size manifest &&& 3 = 0 ∧
      app_manifest_got_offset manifest ≤ manifest.image_size ∧
      app_manifest_got_size manifest ≤ manifest.image_size - app_manifest_got_offset manifest ∧
      app_manifest_got_size manifest / 4 ≤ BOOT_RUNTIME_GOT_WORDS ∧
      ∀ index, 2 ≤ index → index < (app_manifest_vector_words manifest).toNat →
        VectorAccepted manifest.image_size (readWord image (4 * index))

section
variable {board : Board} {slots : Slots} {slot : UInt32}

/-- The vectors of an accepted image fit into it and into the buffer. -/
theorem vector_bounds (hi : ImageAccepted board slots slot)
    (hr : app_manifest_is_relocatable (manifestOf (slots.image slot))) :
    let manifest := manifestOf (slots.image slot)
    ¬ manifest.image_size < 2 * 4 ∧ ¬ app_manifest_vector_words manifest < 2 ∧
      ¬ app_manifest_vector_words manifest > BOOT_RUNTIME_VECTOR_WORDS ∧
      ¬ app_manifest_vector_words manifest > manifest.image_size / 4 := by
  have hsize := image_size_ge hi
  obtain ⟨hmin, hmax⟩ := hr
  rw [ge_iff_le, UInt32.le_iff_toNat_le] at hmin
  rw [UInt32.le_iff_toNat_le] at hmax
  have h2 : (2 : UInt32).toNat = 2 := rfl
  have h128 : (128 : UInt32).toNat = 128 := rfl
  have hcapacity : BOOT_RUNTIME_VECTOR_WORDS.toNat = 128 := rfl
  have h8 : (2 * 4 : UInt32).toNat = 8 := rfl
  dsimp only
  rw [gt_iff_lt, gt_iff_lt, UInt32.lt_iff_toNat_lt, UInt32.lt_iff_toNat_lt, UInt32.lt_iff_toNat_lt,
    UInt32.lt_iff_toNat_lt, UInt32.toNat_div, show (4 : UInt32).toNat = 4 from rfl]
  omega

/-- An accepted second vector is what the relocation wants of it. -/
theorem reset_vector_accepted (hv : VectorsAccepted board slots slot)
    (hr : app_manifest_is_relocatable (manifestOf (slots.image slot))) :
    VectorAccepted (manifestOf (slots.image slot)).image_size
      (readWord (slots.image slot) (4 * 1)) := by
  unfold VectorsAccepted vectorsAccepted at hv
  rw [if_pos hr] at hv
  exact Or.inr (Or.inr hv.2)

/-- After the check of the image and of its first two vectors, the relocation
has only the later checks to make. -/
theorem relocation_iff (hi : ImageAccepted board slots slot)
    (hv : VectorsAccepted board slots slot) :
    RelocationAccepted slots slot ↔ LaterChecks (slots.image slot) := by
  unfold RelocationAccepted LaterChecks
  dsimp only
  refine imp_congr_right fun hr => ?_
  obtain ⟨hsize, hfew, hmany, hroom⟩ := vector_bounds hi hr
  have hreset := reset_vector_accepted hv hr
  unfold RelocationBounds
  simp only [hsize, hfew, hmany, hroom, false_or, or_self, not_or, ne_eq, Decidable.not_not,
    gt_iff_lt, UInt32.not_lt]
  constructor
  · rintro ⟨⟨⟨hoffset, hgot, hin, hfit⟩, hcapacity⟩, hvectors⟩
    exact ⟨hoffset, hgot, hin, hfit, hcapacity, fun index h2 => hvectors index (by omega)⟩
  · rintro ⟨hoffset, hgot, hin, hfit, hcapacity, hvectors⟩
    refine ⟨⟨⟨hoffset, hgot, hin, hfit⟩, hcapacity⟩, fun index h1 hlt => ?_⟩
    by_cases hone : index = 1
    · rw [hone]
      exact hreset
    · exact hvectors index (by omega) hlt

/-- The checks of a slot read nothing but its image. -/
theorem accepted_congr {slots' : Slots} (h : slots'.image slot = slots.image slot) :
    (ImageAccepted board slots' slot ↔ ImageAccepted board slots slot) ∧
      (VectorsAccepted board slots' slot ↔ VectorsAccepted board slots slot) := by
  unfold ImageAccepted VectorsAccepted
  rw [h]
  exact ⟨Iff.rfl, Iff.rfl⟩

end

/-! ## Which downloads boot -/

/-- When VALIDATE returns OK and the slot stays as it is, a boot that selects
the slot accepts its image and its vectors, and jumps to it exactly when the
later checks pass. -/
theorem validated_boots_iff (board : Board) {flash : BootFlash} {save : SaveOutcome}
    {packet : UpdatePacket} {state : UpdateState} (command : packet.command = UPDATE_CMD_VALIDATE)
    (hok : (boot_update_session_process board flash save packet state).1 = .Ok) {slots : Slots}
    (hslot : slots.image state.session.target_slot = state.slots.image state.session.target_slot)
    {copies : Copies} {ram : Ram} {count_save bad_save : SaveOutcome} {candidate : BootCandidate}
    {last : BootStateRecord} {saved : List BootStateRecord}
    (hr : ram (BOOT_UPDATE_REQUEST_ADDR board).toNat ≠ UPDATE_HANDOFF_MAGIC)
    (path : BootPath board slots (boot_state_store_load copies) candidate last saved)
    (hreturn : SavesReturn saved count_save bad_save)
    (hselected : candidate.slot = state.session.target_slot) :
    ImageAccepted board slots candidate.slot ∧ VectorsAccepted board slots candidate.slot ∧
      ((∃ vector_base stack_pointer reset_handler got_base,
          (main board false count_save bad_save slots copies ram).1 =
            .Jump candidate vector_base stack_pointer reset_handler got_base) ↔
        LaterChecks (slots.image candidate.slot)) := by
  obtain ⟨-, accepted⟩ := validate_ok command hok
  obtain ⟨himage, hvectors⟩ := @accepted_congr board _ _ _ hslot
  rw [hselected]
  have hi : ImageAccepted board slots state.session.target_slot := himage.mpr accepted.image
  have hv : VectorsAccepted board slots state.session.target_slot := hvectors.mpr accepted.vectors
  refine ⟨hi, hv, ?_⟩
  rw [← relocation_iff hi hv]
  constructor
  · rintro ⟨vector_base, stack_pointer, reset_handler, got_base, hjump⟩
    obtain ⟨last', saved', hj⟩ := jumps_of_main hjump
    rw [← hselected]
    exact hj.bootable.relocation
  · intro hrelocation
    have hb : Bootable board slots candidate.slot := by
      rw [hselected]
      exact ⟨hi, hv, hrelocation⟩
    rw [main_of_jumps ⟨hr, rfl, path, hreturn, hb⟩]
    exact started_slots.jumpTo_is_jump board slots _ _

/-! ## Two downloads to a fresh device -/

/-- A validation of a session that is valid already returns OK again. -/
theorem validate_again {third : UInt32} {vector_words : Nat} (hw : vector_words < 2 ^ 32)
    (hr : 2 ≤ vector_words ∧ vector_words ≤ 128) {metadata : Metadata}
    (hfin : Finalized (smallImage third) (smallBinary third vector_words) metadata)
    {state : UpdateState}
    (hstage : Stage freshState.copies
      (validSession freshState.session freshState.copies (smallBinary third vector_words)
        metadata.image_crc32 7 metadata.software_version.toNat.toUInt32)
      (smallBinary third vector_words) state) :
    (boot_update_session_process .F446 (driver .F446 noFault) .Completes
      (bare UPDATE_CMD_VALIDATE 7) state).1 = .Ok :=
  (validate_leads hfin (small_fits third hw) (small_vectors_target third hw hr _)
    (plain_carries .F446 (bare UPDATE_CMD_VALIDATE 7)) state hstage).1

/-- With nothing stored, a boot comes to slot A, the slot of the first download. -/
theorem fresh_path {copies : Copies} (hcopies : copies = erasedCopies) (slots : Slots) :
    BootPath .F446 slots (boot_state_store_load copies)
      (candidateFor .F446 BOOT_SLOT_A false) (boot_state_store_load copies) [] := by
  rw [hcopies]
  have path := @BootPath.active .F446 slots (boot_state_store_load erasedCopies)
    (fun h => h.1 started_slots.erased_no_pending) fun h => h.1 started_slots.erased_no_pending
  rw [started_slots.erased_active] at path
  exact path

/-- A boot of the image with the even third vector ends in the update mode. -/
theorem boot_even {copies : Copies} (hcopies : copies = erasedCopies) {slots : Slots} {ram : Ram}
    (hr : ram (BOOT_UPDATE_REQUEST_ADDR .F446).toNat ≠ UPDATE_HANDOFF_MAGIC)
    (h : Holds (slots.image BOOT_SLOT_A) (smallBinary 2 3)) :
    (main .F446 false .Completes .Completes slots copies ram).1 = .UpdateMode := by
  obtain ⟨hi, hv, hrelocation⟩ := @evenVector_checks .F446 slots BOOT_SLOT_A h
  rw [main_path hr (fresh_path hcopies slots) (saves_return []),
    finish_relocation_rejected hi hv hrelocation]

section
variable {binary : List UInt8} {image_crc32 session_id version : UInt32} {state : UpdateState}
  (h : Stage freshState.copies
    (validSession freshState.session freshState.copies binary image_crc32 session_id version)
    binary state)
include h

/-- The first download of a fresh device goes to slot A. -/
theorem fresh_stage : state.session.target_slot = BOOT_SLOT_A ∧ state.copies = erasedCopies ∧
    Holds (state.slots.image BOOT_SLOT_A) binary := by
  have htarget := congrArg BootUpdateSession.target_slot h.session_eq
  have hslot := trial_boots.targetSlot_fresh
  have hholds := h.holds
  rw [hslot] at hholds
  exact ⟨htarget.trans hslot, h.copies_eq, hholds⟩

end

/-- An image with an even third vector is validated, and the boot that selects
it ends in the update mode. -/
theorem even_vector_validated : ∃ image_crc32,
    let state := (processAll .F446 (download (smallBinary 2 3) image_crc32) freshState).2
    (boot_update_session_process .F446 (driver .F446 noFault) .Completes
        (bare UPDATE_CMD_VALIDATE 7) state).1 = .Ok ∧
      (candidateFor .F446 BOOT_SLOT_A false).slot = state.session.target_slot ∧
      BootPath .F446 state.slots (boot_state_store_load state.copies)
        (candidateFor .F446 BOOT_SLOT_A false) (boot_state_store_load state.copies) [] ∧
      (main .F446 false .Completes .Completes state.slots state.copies (fun _ => 0)).1 =
        .UpdateMode := by
  obtain ⟨metadata, hfin, hrun⟩ := download_run 2 (by decide : 3 < 2 ^ 32) (by decide)
  obtain ⟨-, hstage⟩ := hrun freshState
  have hvalid := validate_again (by decide : 3 < 2 ^ 32) (by decide) hfin hstage
  obtain ⟨htarget, hcopies, hholds⟩ := fresh_stage hstage
  exact ⟨metadata.image_crc32, hvalid, htarget.symm, fresh_path hcopies _,
    boot_even hcopies zero_ne_magic hholds⟩

/-- The small image has no later vectors and no GOT. -/
theorem validated_boots_iff_small : ∃ image_crc32,
    let state := (processAll .F446 (download (smallBinary 0 2) image_crc32) freshState).2
    let candidate := candidateFor .F446 BOOT_SLOT_A false
    ImageAccepted .F446 state.slots candidate.slot ∧
      VectorsAccepted .F446 state.slots candidate.slot ∧
      ((∃ vector_base stack_pointer reset_handler got_base,
          (main .F446 false .Completes .Completes state.slots erasedCopies (fun _ => 0)).1 =
            .Jump candidate vector_base stack_pointer reset_handler got_base) ↔
        LaterChecks (state.slots.image candidate.slot)) := by
  obtain ⟨metadata, hfin, hrun⟩ := download_run 0 (by decide : 2 < 2 ^ 32) (by decide)
  obtain ⟨-, hstage⟩ := hrun freshState
  have hvalid := validate_again (by decide : 2 < 2 ^ 32) (by decide) hfin hstage
  obtain ⟨htarget, -, -⟩ := fresh_stage hstage
  exact ⟨metadata.image_crc32, validated_boots_iff .F446 rfl hvalid rfl zero_ne_magic
    (fresh_path rfl _) (saves_return []) htarget.symm⟩

end stm32_vibe.download_check
