-- The slot that an update writes and the slot that the record names as active.
-- A pending slot counts as the running one, so a BEGIN over a pending update
-- takes the active slot, and no other BEGIN does.
import Stm32Vibe.TransferLaws

namespace stm32_vibe.active_slot_laws

open boot_state boot_policy boot_state_store save_history boot_flash update_protocol update_session
  uart_update repeated_update transfer_laws

/-! ## The slot of a BEGIN -/

theorem other_ne {slot : UInt32} (h : slot_is_valid slot) : otherSlot slot ≠ slot := by
  rcases h with rfl | rfl <;> decide

theorem other_eq_of_ne {slot other : UInt32} (h : slot_is_valid slot) (ho : slot_is_valid other)
    (hne : slot ≠ other) : otherSlot slot = other := by
  rcases h with rfl | rfl <;> rcases ho with rfl | rfl
  · exact absurd rfl hne
  · rfl
  · rfl
  · exact absurd rfl hne

/-- The inactive slot is the active one exactly when the other slot is pending. -/
theorem inactive_slot_eq_active {state : BootStateRecord} (hi : InRange state)
    (hrunnable : state.pending_slot = BOOT_STATE_NO_SLOT →
      slot_status_is_runnable (status_for_slot state state.active_slot)) :
    boot_policy_inactive_slot state = state.active_slot ↔ OtherPending state := by
  unfold boot_policy_inactive_slot OtherPending
  by_cases hp : state.pending_slot = BOOT_STATE_NO_SLOT
  · have hn : ¬ (state.pending_slot = BOOT_SLOT_A ∨ state.pending_slot = BOOT_SLOT_B) := by
      rw [hp]
      decide
    rw [if_neg hn, if_pos (hrunnable hp)]
    exact iff_of_false (other_ne hi.active_slot) fun h => h.1 hp
  · have hv := pending_slot_valid hi hp
    unfold slot_is_valid at hv
    rw [if_pos hv]
    constructor
    · intro h
      refine ⟨hp, fun heq => other_ne hv ?_⟩
      rw [h, heq]
    · intro h
      exact other_eq_of_ne hv hi.active_slot h.2

/-! ## The record during a session -/

/-- The store names the active slot, and has a pending slot unless the active one is runnable. -/
structure ActiveRecord (active : UInt32) (copies : Copies) : Prop where
  store : StoreGood copies
  active_slot : (boot_state_store_load copies).active_slot = active
  runnable : (boot_state_store_load copies).pending_slot = BOOT_STATE_NO_SLOT →
    slot_status_is_runnable (status_for_slot (boot_state_store_load copies) active)

/-- An activation keeps the active slot, whether its record is in force or not. -/
theorem ActiveRecord.activate {active : UInt32} {copies : Copies} (h : ActiveRecord active copies)
    {slot : UInt32} (valid : slot_is_valid slot) (version image_crc32 : UInt32)
    (outcome : SaveOutcome) :
    ActiveRecord active (boot_state_store_save_next copies
      (boot_policy_mark_slot_pending (boot_state_store_load copies) slot version image_crc32)
      outcome).1 := by
  have step : RecordStep (boot_state_store_load copies)
      (boot_policy_mark_slot_pending (boot_state_store_load copies) slot version image_crc32) :=
    .activate _ _ _ valid
  have hstore := storeGood_save h.store (recordStep_marked step (load_inRange _)) outcome
  rcases load_old_or_new step h.store outcome with hload | hload
  · exact ⟨hstore, by rw [hload]; exact h.active_slot, by rw [hload]; exact h.runnable⟩
  · refine ⟨hstore, ?_, ?_⟩
    · have hactive := active_slot_of_policy hload
      exact hactive.trans ((mark_slot_pending_active_slot _ _ _ valid).trans h.active_slot)
    · intro hnone
      have hpending := pending_slot_of_policy hload
      have hslot : slot = BOOT_STATE_NO_SLOT :=
        (mark_slot_pending_pending_slot _ _ _ valid).symm.trans (hpending.symm.trans hnone)
      rw [hslot] at valid
      exact absurd valid (by decide)

/-! ## The invariant of the session -/

/-- The download in progress writes the active slot if its BEGIN met a pending
update of the other slot, and the other slot if not. -/
structure ActiveGood (active : UInt32) (state : UpdateState) (transfer : Transfer) : Prop where
  record : ActiveRecord active state.copies
  valid : state.session.session_active = true → slot_is_valid state.session.target_slot
  target : state.session.session_active = true →
    (state.session.target_slot = active ↔ transfer.over_pending = true)

section
variable {board : Board} {flash : BootFlash} {save : SaveOutcome} {packet : UpdatePacket}
  {state next : UpdateState} {status : UpdateStatus} {transfer : Transfer} {active : UInt32}

theorem beginSlot_eq_active (h : ActiveRecord active state.copies) :
    beginSlot state = active ↔ OtherPending (boot_state_store_load state.copies) := by
  have hiff := inactive_slot_eq_active (load_inRange state.copies) fun hp => by
    rw [h.active_slot]
    exact h.runnable hp
  rwa [h.active_slot] at hiff

theorem activeGood_step (h : ActiveGood active state transfer)
    (step : PacketStep board flash save packet state status next) :
    ActiveGood active next (transfer.observe state packet status) := by
  cases step with
  | idle status quiet =>
    rcases observe_idle transfer quiet with ho | ho <;> rw [ho]
    · exact h
    · exact { h with }
  | begin_failed command accepted failed =>
    rw [observe_begin_failed transfer command flash_error_ne_ok]
    exact { h with }
  | begun command accepted erased =>
    rw [observe_begun transfer command]
    refine ⟨h.record, fun _ => beginSlot_valid state, fun _ => ?_⟩
    rw [decide_eq_true_eq]
    exact beginSlot_eq_active h.record
  | block_failed command active new failed =>
    rw [observe_other transfer (by rw [command]; decide) (Or.inl flash_error_ne_ok)]
    exact { h with }
  | block command active new written =>
    rw [observe_block transfer command new.sequence]
    exact { h with }
  | ended command active received =>
    rw [observe_other transfer (by rw [command]; decide) (Or.inr (by rw [command]; decide))]
    exact { h with }
  | validated command active accepted =>
    rw [observe_other transfer (by rw [command]; decide) (Or.inr (by rw [command]; decide))]
    exact { h with }
  | activate_failed command active valid incomplete =>
    rw [observe_other transfer (by rw [command]; decide) (Or.inl flash_error_ne_ok)]
    exact { h with record := h.record.activate (h.valid active) _ _ save }
  | activated command active valid completes =>
    rw [observe_other transfer (by rw [command]; decide) (Or.inr (by rw [command]; decide))]
    exact { h with record := h.record.activate (h.valid active) _ _ save }
  | aborted command =>
    rw [observe_other transfer (by rw [command]; decide) (Or.inr (by rw [command]; decide))]
    exact ⟨h.record, nofun, nofun⟩

/-! ## The calls of one packet -/

/-- A packet makes its flash calls on the slot of its BEGIN, or on the target slot. -/
theorem calls_of_step (step : PacketStep board flash save packet state status next) :
    ∃ calls, next.flash_calls = state.flash_calls ++ calls ∧ ∀ call ∈ calls,
      (packet.command = UPDATE_CMD_BEGIN ∧ call.slot = beginSlot state) ∨
      (packet.command = UPDATE_CMD_BLOCK ∧ state.session.session_active = true ∧
        call.slot = state.session.target_slot) := by
  cases step with
  | begin_failed command accepted failed =>
    refine ⟨_, rfl, ?_⟩
    intro call hmem
    rw [List.mem_singleton.mp hmem]
    exact Or.inl ⟨command, rfl⟩
  | begun command accepted erased =>
    refine ⟨_, rfl, ?_⟩
    intro call hmem
    rw [List.mem_singleton.mp hmem]
    exact Or.inl ⟨command, rfl⟩
  | block_failed command active new failed =>
    refine ⟨_, rfl, ?_⟩
    intro call hmem
    rw [List.mem_singleton.mp hmem]
    exact Or.inr ⟨command, active, rfl⟩
  | block command active new written =>
    refine ⟨_, rfl, ?_⟩
    intro call hmem
    rw [List.mem_singleton.mp hmem]
    exact Or.inr ⟨command, active, rfl⟩
  | idle => exact ⟨[], (List.append_nil _).symm, nofun⟩
  | ended => exact ⟨[], (List.append_nil _).symm, nofun⟩
  | validated => exact ⟨[], (List.append_nil _).symm, nofun⟩
  | activate_failed => exact ⟨[], (List.append_nil _).symm, nofun⟩
  | activated => exact ⟨[], (List.append_nil _).symm, nofun⟩
  | aborted => exact ⟨[], (List.append_nil _).symm, nofun⟩

end

/-! ## The law of the active slot -/

/-- The record named the other slot as pending when the BEGIN came: this
packet, or the one that opened the download. -/
def BegunOverPending (state : UpdateState) (transfer : Transfer) (packet : UpdatePacket) : Prop :=
  if packet.command = UPDATE_CMD_BEGIN then OtherPending (boot_state_store_load state.copies)
  else transfer.over_pending = true

/-- From any stored state with a runnable active slot, and after any row of
packets, the active slot is the same, and the calls of the next packet touch it
exactly when the download began over a pending update of the other slot. -/
theorem calls_touch_active_iff (board : Board) {copies : Copies} (hreach : StoreReachable copies)
    (hrunnable : slot_status_is_runnable (status_for_slot (boot_state_store_load copies)
      (boot_state_store_load copies).active_slot))
    (slots : Slots) (deliveries : List Delivery) (flash : BootFlash) (save : SaveOutcome)
    (packet : UpdatePacket) :
    let state := (deliverAll board copies slots deliveries).1
    let transfer := (deliverAll board copies slots deliveries).2
    let next := (boot_update_session_process board flash save packet state).2
    (boot_state_store_load state.copies).active_slot =
        (boot_state_store_load copies).active_slot ∧
      ∃ calls, next.flash_calls = state.flash_calls ++ calls ∧ ∀ call ∈ calls,
        (call.slot = (boot_state_store_load state.copies).active_slot ↔
          BegunOverPending state transfer packet) := by
  intro state transfer next
  have hgood : ActiveGood (boot_state_store_load copies).active_slot state transfer :=
    deliverAll_induct (motive := ActiveGood (boot_state_store_load copies).active_slot)
      ⟨⟨hreach.good, rfl, fun _ => hrunnable⟩, nofun, nofun⟩
      fun state transfer h delivery _ status next step => activeGood_step h step
  refine ⟨hgood.record.active_slot, ?_⟩
  obtain ⟨calls, hcalls, hslots⟩ := calls_of_step (packetStep board flash save packet state)
  refine ⟨calls, hcalls, ?_⟩
  intro call hmem
  rw [hgood.record.active_slot]
  unfold BegunOverPending
  rcases hslots call hmem with ⟨command, hslot⟩ | ⟨command, hactive, hslot⟩
  · rw [if_pos command, hslot]
    exact beginSlot_eq_active hgood.record
  · rw [if_neg (by rw [command]; decide), hslot]
    exact hgood.target hactive

/-! ## Slot A confirmed -/

theorem confirmedA_active : (recordForMode .ConfirmedA).active_slot = BOOT_SLOT_A := rfl

theorem confirmedA_status :
    status_for_slot (recordForMode .ConfirmedA) BOOT_SLOT_A = BOOT_SLOT_STATUS_CONFIRMED := rfl

/-- A BEGIN that announces one byte. -/
def shortBegin : UpdatePacket := beginPacket 7 [0] 0

theorem shortBegin_accepted : BeginAccepted .F446 shortBegin :=
  begin_accepted 7 [0] 0 (by decide) (by decide)

/-- After a BEGIN on a device with slot A confirmed, a block is written to slot B. -/
theorem calls_touch_active_iff_confirmed :
    let copies := image_for_mode .ConfirmedA
    let at_ := deliverAll .F446 copies erasedSlots [plain .F446 shortBegin]
    let packet := blockPacket 7 [0] 0
    let next := (boot_update_session_process .F446 (driver .F446 noFault) .Completes packet
      at_.1).2
    slot_status_is_runnable (status_for_slot (boot_state_store_load copies)
        (boot_state_store_load copies).active_slot) ∧
      (boot_state_store_load at_.1.copies).active_slot =
        (boot_state_store_load copies).active_slot ∧
      ∃ calls, next.flash_calls = at_.1.flash_calls ++ calls ∧ ∀ call ∈ calls,
        (call.slot = (boot_state_store_load at_.1.copies).active_slot ↔
          BegunOverPending at_.1 at_.2 packet) := by
  have hrunnable : slot_status_is_runnable (status_for_slot
      (boot_state_store_load (image_for_mode .ConfirmedA))
      (boot_state_store_load (image_for_mode .ConfirmedA)).active_slot) := by
    rw [load_image_for_mode, confirmedA_active, confirmedA_status]
    decide
  have hreach : StoreReachable (image_for_mode .ConfirmedA) := .provisioned (.image .ConfirmedA)
  generalize image_for_mode .ConfirmedA = copies at hrunnable hreach ⊢
  exact ⟨hrunnable, calls_touch_active_iff .F446 hreach hrunnable erasedSlots _ _ _ _⟩

/-- A BEGIN with the other slot pending erases the active slot. -/
theorem begin_over_pending {state : UpdateState}
    (hother : OtherPending (boot_state_store_load state.copies)) :
    ∃ call ∈ (boot_update_session_process .F446 (driver .F446 noFault) .Completes shortBegin
        state).2.flash_calls,
      call.slot = (boot_state_store_load state.copies).active_slot := by
  have hslot : beginSlot state = (boot_state_store_load state.copies).active_slot :=
    (inactive_slot_eq_active (load_inRange _) fun hp => absurd hp hother.1).mpr hother
  have erased := (driver_succeeds .F446).erase state.slots (beginSlot state) _
    (beginSlot_valid state) shortBegin_accepted.2.1 shortBegin_accepted.2.2
  rw [process_begin rfl shortBegin_accepted erased]
  exact ⟨_, List.mem_append_right _ (List.mem_singleton_self _), hslot⟩

/-- With slot A confirmed and slot B activated, a BEGIN erases slot A. -/
theorem begin_erases_active :
    let copies := activateSlot (image_for_mode .ConfirmedA) BOOT_SLOT_B 1 0
    let next := (boot_update_session_process .F446 (driver .F446 noFault) .Completes shortBegin
      (start copies erasedSlots).1).2
    StoreReachable copies ∧
      slot_status_is_runnable (status_for_slot (boot_state_store_load copies)
        (boot_state_store_load copies).active_slot) ∧
      ∃ call ∈ next.flash_calls, call.slot = (boot_state_store_load copies).active_slot := by
  have hB : slot_is_valid BOOT_SLOT_B := Or.inr rfl
  have hfirst : StoreReachable (image_for_mode .ConfirmedA) := .provisioned (.image .ConfirmedA)
  have hroom : generationOf (boot_state_store_load (image_for_mode .ConfirmedA)) + 1 < 2 ^ 32 := by
    rw [provisioned_generation (.image .ConfirmedA)]
    decide
  have hload := load_activateSlot hB 1 0 hroom
  rw [load_image_for_mode] at hload
  have hreach := activateSlot_reachable hfirst hB 1 0
  have hactive : (boot_policy_mark_slot_pending (recordForMode .ConfirmedA) BOOT_SLOT_B 1
      0).active_slot = BOOT_SLOT_A := mark_slot_pending_active_slot _ _ _ hB
  have hpending := mark_slot_pending_pending_slot (recordForMode .ConfirmedA) 1 0 hB
  have hstatus : status_for_slot (boot_policy_mark_slot_pending (recordForMode .ConfirmedA)
      BOOT_SLOT_B 1 0) BOOT_SLOT_A = BOOT_SLOT_STATUS_CONFIRMED :=
    (mark_slot_pending_status_ne _ _ _ hB (by decide)).trans confirmedA_status
  rw [← hload] at hactive hpending hstatus
  generalize activateSlot (image_for_mode .ConfirmedA) BOOT_SLOT_B 1 0 = copies at *
  have hother : OtherPending (boot_state_store_load copies) := by
    unfold OtherPending
    rw [hactive, hpending]
    decide
  refine ⟨hreach, ?_, @begin_over_pending (start copies erasedSlots).1 hother⟩
  rw [hactive, hstatus]
  decide

end stm32_vibe.active_slot_laws
