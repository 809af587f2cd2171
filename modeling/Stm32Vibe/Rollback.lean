-- Whether a boot falls back to the active image when the pending one does not
-- boot. It does after a rejected image, and does not after rejected vectors or
-- a failed relocation, where `main` ends in the update mode.
import Stm32Vibe.StartedSlots

namespace stm32_vibe.rollback

open boot_state boot_policy boot_state_store save_history boot_runtime boot_main handover
  started_slots

/-! ## The fallback -/

/-- A quiet boot with successful saves jumps to the active image and leaves the
pending slot bad in the stored record. -/
def RollsBack (board : Board) (slots : Slots) (copies : Copies) (ram : Ram) : Prop :=
  let state := boot_state_store_load copies
  let run := main board false .Completes .Completes slots copies ram
  (∃ vector_base stack_pointer reset_handler got_base,
      run.1 = .Jump (candidateFor board state.active_slot false) vector_base stack_pointer
        reset_handler got_base) ∧
    status_for_slot (boot_state_store_load run.2.copies) state.pending_slot = BOOT_SLOT_STATUS_BAD

/-- The pending slot is bad already, or its attempts are used up, or its image
is rejected in a trial. In the last generations the mark is not in force. -/
def MarksBad (board : Board) (slots : Slots) (state : BootStateRecord) : Prop :=
  status_for_slot state state.pending_slot = BOOT_SLOT_STATUS_BAD ∨
    status_for_slot state state.pending_slot = BOOT_SLOT_STATUS_PENDING ∧
      (BOOT_STATE_MAX_PENDING_ATTEMPTS ≤ state.pending_attempts ∧
          generationOf state ≠ 2 ^ 32 - 1 ∨
        state.pending_attempts < BOOT_STATE_MAX_PENDING_ATTEMPTS ∧
          ¬ ImageAccepted board slots state.pending_slot ∧ generationOf state ≠ 2 ^ 32 - 2)

section
variable {board : Board} {slots : Slots} {copies : Copies} {ram : Ram}

theorem saves_return (saved : List BootStateRecord) : SavesReturn saved .Completes .Completes :=
  ⟨fun _ => rfl, fun _ => rfl⟩

/-- Off a trial, the boot comes to the active image and what counts is the stored mark. -/
theorem rollsBack_of_active {last : BootStateRecord} {saved : List BootStateRecord}
    (hr : ram (BOOT_UPDATE_REQUEST_ADDR board).toNat ≠ UPDATE_HANDOFF_MAGIC)
    (ha : Bootable board slots (boot_state_store_load copies).active_slot)
    (path : BootPath board slots (boot_state_store_load copies)
      (candidateFor board (boot_state_store_load copies).active_slot false) last saved) :
    RollsBack board slots copies ram ↔
      status_for_slot (storedAfter copies ram saved .Completes .Completes)
        (boot_state_store_load copies).pending_slot = BOOT_SLOT_STATUS_BAD := by
  have hj : Jumps board false .Completes .Completes slots copies ram
      (candidateFor board (boot_state_store_load copies).active_slot false) last saved :=
    ⟨hr, rfl, path, saves_return saved, ha⟩
  have hstored := stored_of_jumps hj
  unfold RollsBack
  dsimp only
  rw [hstored]
  constructor
  · exact fun h => h.2
  · refine fun h => ⟨?_, h⟩
    rw [main_of_jumps hj]
    exact jumpTo_is_jump board slots _ _

/-- A trial of an image that is accepted but does not boot ends in the update mode. -/
theorem trial_not_rollsBack (due : TrialDue (boot_state_store_load copies))
    (accepted : ImageAccepted board slots (boot_state_store_load copies).pending_slot)
    (hr : ram (BOOT_UPDATE_REQUEST_ADDR board).toNat ≠ UPDATE_HANDOFF_MAGIC)
    (hp : ¬ Bootable board slots (boot_state_store_load copies).pending_slot) :
    (main board false .Completes .Completes slots copies ram).1 = .UpdateMode := by
  rw [main_path hr (.trial due accepted) (saves_return _)]
  rcases @finish_not_bootable board slots _ true .Completes
    (countAttempt (boot_state_store_load copies)) _ hp with h | ⟨-, h⟩
  · exact h
  · cases h

theorem not_pending_of_trialDue {state : BootStateRecord} (due : TrialDue state) :
    ¬ BOOT_STATE_MAX_PENDING_ATTEMPTS ≤ state.pending_attempts :=
  UInt32.not_le.mpr due.2.1

theorem bad_ne_pending : BOOT_SLOT_STATUS_BAD ≠ BOOT_SLOT_STATUS_PENDING := by decide

end

/-! ## Which boots roll back -/

/-- With a pending image that does not boot and an active one that does, a quiet
boot rolls back exactly when it marks the pending slot bad before it checks the
vectors, or finds it marked. -/
theorem rolls_back_iff (board : Board) (slots : Slots) {copies : Copies} {ram : Ram}
    (haligned : two_copy_log.Aligned generationOf copies.log)
    (hr : ram (BOOT_UPDATE_REQUEST_ADDR board).toNat ≠ UPDATE_HANDOFF_MAGIC)
    (hpending : (boot_state_store_load copies).pending_slot ≠ BOOT_STATE_NO_SLOT)
    (hp : ¬ Bootable board slots (boot_state_store_load copies).pending_slot)
    (ha : Bootable board slots (boot_state_store_load copies).active_slot) :
    RollsBack board slots copies ram ↔ MarksBad board slots (boot_state_store_load copies) := by
  have hi := load_inRange copies
  obtain ⟨candidate, last, saved, path⟩ :=
    bootPath_exists board slots (boot_state_store_load copies)
  cases path with
  | trial due accepted =>
    have hend := @trial_not_rollsBack board slots copies ram due accepted hr hp
    constructor
    · rintro ⟨⟨vector_base, stack_pointer, reset_handler, got_base, hjump⟩, -⟩
      rw [hend] at hjump
      cases hjump
    · rintro (hbad | ⟨-, ⟨hmany, -⟩ | ⟨-, hrejected, -⟩⟩)
      · exact absurd (hbad.symm.trans due.2.2) bad_ne_pending
      · exact absurd hmany (not_pending_of_trialDue due)
      · exact absurd accepted hrejected
  | exhausted exhausted =>
    rw [rollsBack_of_active hr ha (.exhausted exhausted), storedAfter_exhausted haligned exhausted]
    obtain ⟨-, hmany, hstatus⟩ := exhausted
    unfold MarksBad
    split
    · rename_i hlast
      constructor
      · exact fun h => absurd (h.symm.trans hstatus) bad_ne_pending
      · rintro (hbad | ⟨-, ⟨-, hroom⟩ | ⟨hfew, -⟩⟩)
        · exact hbad
        · exact absurd hlast hroom
        · exact absurd hmany (UInt32.not_le.mpr hfew)
    · rename_i hroom
      constructor
      · exact fun _ => Or.inr ⟨hstatus, Or.inl ⟨hmany, hroom⟩⟩
      · exact fun _ => mark_pending_bad_status hpending hi
  | active not_exhausted not_due =>
    rw [rollsBack_of_active hr ha (.active not_exhausted not_due)]
    constructor
    · exact fun h => Or.inl h
    · rintro (hbad | ⟨hstatus, ⟨hmany, -⟩ | ⟨hfew, -⟩⟩)
      · exact hbad
      · exact absurd ⟨hpending, hmany, hstatus⟩ not_exhausted
      · exact absurd ⟨hpending, hfew, hstatus⟩ not_due
  | fallback due rejected =>
    rw [rollsBack_of_active hr ha (.fallback due rejected), storedAfter_fallback haligned due]
    have hcounted := countAttempt_status (boot_state_store_load copies)
      (boot_state_store_load copies).pending_slot
    unfold MarksBad
    split
    · rename_i hlast
      rw [hcounted]
      constructor
      · exact fun h => absurd (h.symm.trans due.2.2) bad_ne_pending
      · rintro (hbad | ⟨-, ⟨hmany, -⟩ | ⟨-, -, hroom⟩⟩)
        · exact hbad
        · exact absurd hmany (not_pending_of_trialDue due)
        · exact absurd hlast hroom
    · rename_i hroom
      constructor
      · exact fun _ => Or.inr ⟨due.2.2, Or.inr ⟨due.2.1, rejected, hroom⟩⟩
      · intro _
        have hmarked := mark_pending_bad_status
          (by rw [countAttempt_pending_slot]; exact hpending)
          (recordStep_inRange (.count due) hi)
        rwa [countAttempt_pending_slot] at hmarked

/-! ## Slot A confirmed and slot B pending -/

/-- The store of a device that was shipped with slot A confirmed, after slot B was activated. -/
def pendingB : Copies := activateSlot (image_for_mode .ConfirmedA) BOOT_SLOT_B 1 0

theorem pendingB_reachable : StoreReachable pendingB :=
  activateSlot_reachable (.provisioned (.image .ConfirmedA)) (Or.inr rfl) 1 0

theorem load_pendingB : boot_state_store_load pendingB =
    boot_policy_mark_slot_pending (recordForMode .ConfirmedA) BOOT_SLOT_B 1 0 := by
  have hroom : generationOf (boot_state_store_load (image_for_mode .ConfirmedA)) + 1 < 2 ^ 32 := by
    rw [provisioned_generation (.image .ConfirmedA)]
    decide
  have hload := load_activateSlot (Or.inr rfl : slot_is_valid BOOT_SLOT_B) 1 0 hroom
  rw [load_image_for_mode] at hload
  exact hload

theorem pendingB_active : (boot_state_store_load pendingB).active_slot = BOOT_SLOT_A := by
  rw [load_pendingB]
  exact mark_slot_pending_active_slot _ _ _ (Or.inr rfl)

theorem pendingB_pending : (boot_state_store_load pendingB).pending_slot = BOOT_SLOT_B := by
  rw [load_pendingB]
  exact mark_slot_pending_pending_slot _ _ _ (Or.inr rfl)

theorem pendingB_generation : generationOf (boot_state_store_load pendingB) = 1 := by
  have hgen := mark_slot_pending_generation (recordForMode .ConfirmedA) 1 0
    (Or.inr rfl : slot_is_valid BOOT_SLOT_B)
  have hzero := recordForMode_generation .ConfirmedA
  rw [load_pendingB]
  unfold generationOf at *
  rw [hgen, UInt32.toNat_add, hzero]
  rfl

theorem pendingB_due : TrialDue (boot_state_store_load pendingB) := by
  have hslot : slot_is_valid BOOT_SLOT_B := Or.inr rfl
  refine ⟨?_, ?_, ?_⟩
  · rw [pendingB_pending]
    decide
  · rw [load_pendingB, mark_slot_pending_attempts _ _ _ hslot]
    decide
  · rw [pendingB_pending, load_pendingB]
    exact mark_slot_pending_status _ _ _ hslot

/-- The small image in slot A, and in slot B one whose third vector is even. -/
def evenVectorSlots : Slots where
  a := imageOf (finalize_image.smallBinary 0 2)
  b := imageOf (finalize_image.smallBinary 2 3)

/-- An image that lists an even third vector passes the checks of `main` and no relocation. -/
theorem evenVector_checks {board : Board} {slots : Slots} {slot : UInt32}
    (h : little_endian.Holds (slots.image slot) (finalize_image.smallBinary 2 3)) :
    ImageAccepted board slots slot ∧ VectorsAccepted board slots slot ∧
      ¬ RelocationAccepted slots slot := by
  obtain ⟨hsize, hwords, hoffset, hgot⟩ := finalize_image.small_manifest h (by decide)
  obtain ⟨-, -, h8⟩ := finalize_image.small_vectors h (by decide)
  refine ⟨finalize_image.small_valid h (by decide) (by cases board <;> decide), ?_, ?_⟩
  · unfold VectorsAccepted
    rw [hsize]
    exact finalize_image.small_vectorsAccepted h (by decide) (by decide) _ _ _
  · intro hrelocation
    unfold RelocationAccepted at hrelocation
    dsimp only at hrelocation
    have hrel : app_image.app_manifest_is_relocatable
        (app_image.manifestOf (slots.image slot)) := by
      unfold app_image.app_manifest_is_relocatable
      rw [hwords]
      decide
    have htwo := (hrelocation hrel).2 2 (by decide) (by rw [hwords]; decide)
    rw [hsize, show 4 * 2 = 8 from rfl, h8] at htwo
    exact absurd htwo (by decide)

theorem evenVectorSlots_a : Bootable .F446 evenVectorSlots BOOT_SLOT_A :=
  small_bootable (imageOf_holds _)

theorem evenVectorSlots_b : ImageAccepted .F446 evenVectorSlots BOOT_SLOT_B ∧
    VectorsAccepted .F446 evenVectorSlots BOOT_SLOT_B ∧
      ¬ RelocationAccepted evenVectorSlots BOOT_SLOT_B :=
  evenVector_checks (imageOf_holds _)

/-- A pending image whose relocation fails leaves the device in the update mode. -/
theorem relocation_not_rolled_back :
    StoreReachable pendingB ∧
      (boot_state_store_load pendingB).pending_slot ≠ BOOT_STATE_NO_SLOT ∧
      ¬ Bootable .F446 evenVectorSlots (boot_state_store_load pendingB).pending_slot ∧
      Bootable .F446 evenVectorSlots (boot_state_store_load pendingB).active_slot ∧
      (main .F446 false .Completes .Completes evenVectorSlots pendingB (fun _ => 0)).1 =
        .UpdateMode := by
  obtain ⟨himage, -, hrelocation⟩ := evenVectorSlots_b
  have hp : ¬ Bootable .F446 evenVectorSlots (boot_state_store_load pendingB).pending_slot := by
    rw [pendingB_pending]
    exact fun h => hrelocation h.relocation
  refine ⟨pendingB_reachable, pendingB_due.1, hp, ?_, ?_⟩
  · rw [pendingB_active]
    exact evenVectorSlots_a
  · refine trial_not_rollsBack pendingB_due ?_ zero_ne_magic hp
    rw [pendingB_pending]
    exact himage

/-- The small image in slot A and nothing in slot B. -/
def emptyBSlots : Slots where
  a := imageOf (finalize_image.smallBinary 0 2)
  b := imageOf []

theorem emptyB_rejected : ¬ ImageAccepted .F446 emptyBSlots BOOT_SLOT_B :=
  app_image.erased_rejected fun _ _ => rfl

/-- With slot B erased, the boot rolls back. -/
theorem rolls_back_iff_erased : RollsBack .F446 emptyBSlots pendingB (fun _ => 0) := by
  have ha : Bootable .F446 emptyBSlots BOOT_SLOT_A := small_bootable (imageOf_holds _)
  refine (rolls_back_iff .F446 emptyBSlots pendingB_reachable.good.aligned zero_ne_magic
    pendingB_due.1 ?_ ?_).mpr (Or.inr ⟨pendingB_due.2.2, Or.inr ⟨pendingB_due.2.1, ?_, ?_⟩⟩)
  · rw [pendingB_pending]
    exact fun h => emptyB_rejected h.image
  · rw [pendingB_active]
    exact ha
  · rw [pendingB_pending]
    exact emptyB_rejected
  · rw [pendingB_generation]
    decide

end stm32_vibe.rollback
