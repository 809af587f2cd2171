-- Which image a confirmation promotes. The application reads the stored record,
-- and `main` ignores whether its mark of a bad slot was stored. So a boot of the
-- active image can leave the other slot pending, for the application to confirm.
import Stm32Vibe.StartedSlots
import Stm32Vibe.TrialBoots

namespace stm32_vibe.running_image

open boot_state boot_policy boot_state_store save_history boot_runtime boot_flash update_protocol
  update_session finalize_image uart_update repeated_update transfer_laws boot_main handover device
  started_slots trial_boots

/-! ## The mark of a bad slot -/

/-- A boot that goes on to the active image after it marked the pending slot bad
does not fail in the save of the mark. -/
def MarkSaved (board : Board) (device : Device) : Event → Prop
  | .Boot ram traffic count_save bad_save =>
    let state := boot_state_store_load device.copies
    ram (BOOT_UPDATE_REQUEST_ADDR board).toNat ≠ UPDATE_HANDOFF_MAGIC → traffic = false →
      Bootable board device.slots state.active_slot →
      (Exhausted state → count_save.Reliable) ∧
        (TrialDue state → ¬ ImageAccepted board device.slots state.pending_slot →
          bad_save.Reliable ∧ (count_save.Reliable ∨ generationOf state + 2 < 2 ^ 32))
  | _ => True

/-- A pending slot is the running one, handed over as pending. With the last
generation in force, no confirmation comes into force. -/
structure ConfirmGood (device : Device) : Prop where
  reachable : DeviceReachable device
  running : ∀ candidate, device.mode = .Running candidate →
    (boot_state_store_load device.copies).pending_slot ≠ BOOT_STATE_NO_SLOT →
    generationOf (boot_state_store_load device.copies) = 2 ^ 32 - 1 ∨
      (candidate.slot = (boot_state_store_load device.copies).pending_slot ∧
        candidate.boot_pending = true)

/-! ## What a boot leaves pending -/

section
variable {board : Board} {slots : Slots} {copies : Copies} {ram : Ram}
  {count_save bad_save : SaveOutcome}

/-- A trial leaves its own slot pending. -/
theorem trial_pending (hg : StoreGood copies) (due : TrialDue (boot_state_store_load copies)) :
    (storedAfter copies ram [countAttempt (boot_state_store_load copies)] count_save
      bad_save).pending_slot = (boot_state_store_load copies).pending_slot := by
  rcases load_old_or_new (.count due) hg count_save with h | h
  · exact congrArg BootStateRecord.pending_slot h
  · exact (pending_slot_of_policy h).trans (countAttempt_pending_slot _)

/-- A saved mark leaves no slot pending, or the last generation in force. -/
theorem exhausted_pending (hg : StoreGood copies)
    (exhausted : Exhausted (boot_state_store_load copies)) :
    let after := storedAfter copies ram [boot_policy_mark_pending_bad (boot_state_store_load copies)]
      .Completes bad_save
    after.pending_slot = BOOT_STATE_NO_SLOT ∨ generationOf after = 2 ^ 32 - 1 := by
  dsimp only
  rw [storedAfter_exhausted hg.aligned exhausted]
  split
  · exact Or.inr ‹_›
  · exact Or.inl (mark_pending_bad_pending_slot _)

theorem fallback_pending (hg : StoreGood copies) (due : TrialDue (boot_state_store_load copies))
    (hs : count_save = .Completes ∨ generationOf (boot_state_store_load copies) + 2 < 2 ^ 32) :
    let after := storedAfter copies ram [countAttempt (boot_state_store_load copies),
      boot_policy_mark_pending_bad (countAttempt (boot_state_store_load copies))] count_save
      .Completes
    after.pending_slot = BOOT_STATE_NO_SLOT ∨ generationOf after = 2 ^ 32 - 1 := by
  dsimp only
  have hp : (countAttempt (boot_state_store_load copies)).pending_slot ≠ BOOT_STATE_NO_SLOT := by
    rw [countAttempt_pending_slot]
    exact due.1
  rcases hs with rfl | hroom
  · rw [storedAfter_fallback hg.aligned due]
    split
    · rename_i hlast
      right
      rw [recordStep_generationOf (.count due) (load_inRange copies), hlast]
      rfl
    · exact Or.inl (mark_pending_bad_pending_slot _)
  · left
    have hload := load_second_completed hg (.count due) (.bad hp) count_save hroom
    exact (congrArg BootStateRecord.pending_slot hload).trans (mark_pending_bad_pending_slot _)

/-- After a boot that jumps under the condition, a pending slot is the one that was started. -/
theorem boot_running {traffic : Bool} {candidate : BootCandidate} {last : BootStateRecord}
    {saved : List BootStateRecord} (hg : StoreGood copies)
    (hj : Jumps board traffic count_save bad_save slots copies ram candidate last saved)
    (hmark : Bootable board slots (boot_state_store_load copies).active_slot →
      (Exhausted (boot_state_store_load copies) → count_save.Reliable) ∧
        (TrialDue (boot_state_store_load copies) →
          ¬ ImageAccepted board slots (boot_state_store_load copies).pending_slot →
          bad_save.Reliable ∧
            (count_save.Reliable ∨ generationOf (boot_state_store_load copies) + 2 < 2 ^ 32)))
    (hp : (storedAfter copies ram saved count_save bad_save).pending_slot ≠ BOOT_STATE_NO_SLOT) :
    generationOf (storedAfter copies ram saved count_save bad_save) = 2 ^ 32 - 1 ∨
      (candidate.slot = (storedAfter copies ram saved count_save bad_save).pending_slot ∧
        candidate.boot_pending = true) := by
  obtain ⟨-, -, path, hreturn, hb⟩ := hj
  cases path with
  | trial due accepted => exact Or.inr ⟨(trial_pending hg due).symm, rfl⟩
  | exhausted exhausted =>
    have hc := completes_of_returns ((hmark hb).1 exhausted) (hreturn.first (by simp))
    rw [hc] at hp ⊢
    exact Or.inl ((exhausted_pending hg exhausted).resolve_left hp)
  | active not_exhausted not_due =>
    rcases due_or_exhausted hg hp with due | exhausted
    · exact absurd due not_due
    · exact absurd exhausted not_exhausted
  | fallback due rejected =>
    obtain ⟨hbad, hcount⟩ := (hmark hb).2 due rejected
    have hc := completes_of_returns hbad (hreturn.second (by simp))
    have hs : count_save = .Completes ∨
        generationOf (boot_state_store_load copies) + 2 < 2 ^ 32 := by
      rcases hcount with h | h
      · exact Or.inl (completes_of_returns h (hreturn.first (by simp)))
      · exact Or.inr h
    rw [hc] at hp ⊢
    exact Or.inl ((fallback_pending hg due hs).resolve_left hp)

end

/-! ## Every run -/

section
variable {board : Board} {device : Device}

theorem confirmGood_boot (h : ConfirmGood device) {ram : Ram} {traffic : Bool}
    {count_save bad_save : SaveOutcome}
    (hmark : MarkSaved board device (.Boot ram traffic count_save bad_save)) :
    ConfirmGood (device.step board (.Boot ram traffic count_save bad_save)) := by
  refine ⟨step_reachable h.reachable _, ?_⟩
  intro candidate hmode hp
  obtain ⟨vector_base, stack_pointer, reset_handler, got_base, hjump⟩ :
      ∃ vector_base stack_pointer reset_handler got_base,
        (main board traffic count_save bad_save device.slots device.copies ram).1 =
          .Jump candidate vector_base stack_pointer reset_handler got_base := by
    unfold Device.step modeOf at hmode
    dsimp only at hmode
    split at hmode
    · rename_i hend
      cases hmode
      exact ⟨_, _, _, _, hend⟩
    · cases hmode
    · cases hmode
  obtain ⟨last, saved, hj⟩ := jumps_of_main hjump
  have hstored := stored_of_jumps hj
  change (boot_state_store_load (main board traffic count_save bad_save device.slots device.copies
    ram).2.copies).pending_slot ≠ BOOT_STATE_NO_SLOT at hp
  change generationOf (boot_state_store_load (main board traffic count_save bad_save device.slots
      device.copies ram).2.copies) = 2 ^ 32 - 1 ∨
    candidate.slot = (boot_state_store_load (main board traffic count_save bad_save device.slots
      device.copies ram).2.copies).pending_slot ∧ candidate.boot_pending = true
  rw [hstored] at hp ⊢
  exact boot_running h.reachable.store.good hj (hmark hj.no_request hj.no_traffic) hp

/-- In the update loop nothing runs that confirms. -/
theorem packet_not_running (delivery : Delivery) {session : BootUpdateSession}
    (hmode : device.mode = .Update session) (candidate : BootCandidate) :
    (device.step board (.Packet delivery)).mode ≠ .Running candidate := by
  obtain ⟨-, -, hafter⟩ := @packet_step board device session hmode delivery
  rcases hafter with h | h <;> rw [h] <;> nofun

/-- A confirmation that changes the stored record leaves no slot pending. -/
theorem confirm_stored (copies : Copies) (hg : StoreGood copies) (save : SaveOutcome) :
    boot_state_store_load (platform_confirm_pending_boot copies save).2.1 =
        boot_state_store_load copies ∨
      (boot_state_store_load copies).pending_slot ≠ BOOT_STATE_NO_SLOT ∧
        generationOf (boot_state_store_load copies) ≠ 2 ^ 32 - 1 ∧
        (boot_state_store_load (platform_confirm_pending_boot copies save).2.1).policy =
          (boot_policy_confirm_pending (boot_state_store_load copies)).policy := by
  rcases confirm_cases copies save with h | ⟨hp, h⟩
  · rw [h]
    exact Or.inl rfl
  · rw [h]
    by_cases hlast : generationOf (boot_state_store_load copies) = 2 ^ 32 - 1
    · left
      exact load_save_wrapped hg.aligned hlast
        (recordStep_wrapped (.confirm hp) (load_inRange copies) hlast) save
    · rcases load_old_or_new (.confirm hp) hg save with hload | hload
      · exact Or.inl hload
      · exact Or.inr ⟨hp, hlast, hload⟩

theorem confirm_step_copies {candidate : BootCandidate} (hmode : device.mode = .Running candidate)
    (save : SaveOutcome) : (device.step board (.Confirm save)).copies =
      (platform_confirm_pending_boot device.copies save).2.1 := by
  unfold Device.step
  rw [hmode]

theorem confirmGood_confirm (h : ConfirmGood device) {candidate : BootCandidate}
    (hmode : device.mode = .Running candidate) (save : SaveOutcome) :
    ConfirmGood (device.step board (.Confirm save)) := by
  refine ⟨step_reachable h.reachable _, ?_⟩
  intro other hother hp
  have hsame : other = candidate := by
    unfold Device.step at hother
    rw [hmode] at hother
    dsimp only at hother
    split at hother
    · cases hother
    · exact (Mode.Running.inj hother).symm
  rw [hsame, confirm_step_copies hmode] at *
  rcases confirm_stored device.copies h.reachable.store.good save with hload | ⟨hpending, -, hload⟩
  · rw [hload] at hp ⊢
    exact h.running candidate hmode hp
  · have hnone :=
      (confirm_pending_spec (pending_slot_valid (load_inRange _) hpending)).2.pending_slot
    rw [pending_slot_of_policy hload] at hp
    exact absurd hnone hp

/-- One event that does not fail to save a mark keeps the invariant. -/
theorem confirmGood_step (h : ConfirmGood device) {event : Event}
    (hmark : MarkSaved board device event) : ConfirmGood (device.step board event) := by
  cases event with
  | Boot ram traffic count_save bad_save => exact confirmGood_boot h hmark
  | Packet delivery =>
    by_cases hmode : ∃ session, device.mode = .Update session
    · obtain ⟨session, hmode⟩ := hmode
      exact ⟨step_reachable h.reachable _, fun candidate hc =>
        absurd hc (packet_not_running delivery hmode candidate)⟩
    · rw [packet_ignored fun session hs => hmode ⟨session, hs⟩]
      exact h
  | Confirm save =>
    by_cases hmode : ∃ candidate, device.mode = .Running candidate
    · obtain ⟨candidate, hmode⟩ := hmode
      exact confirmGood_confirm h hmode save
    · rw [confirm_ignored fun candidate hc => hmode ⟨candidate, hc⟩]
      exact h

/-- Each event of the run saves its mark. -/
def MarksSaved (board : Board) (device : Device) (events : List Event) : Prop :=
  ∀ before event after, events = before ++ event :: after →
    MarkSaved board (device.run board before) event

theorem confirmGood_run {copies : Copies} (hp : Provisioned copies) (slots : Slots)
    {events : List Event} (hmarks : MarksSaved board (firstDevice copies slots) events) :
    ConfirmGood ((firstDevice copies slots).run board events) := by
  induction events using List.reverseRecOn with
  | nil => exact ⟨run_reachable hp slots [], nofun⟩
  | append_singleton events event ih =>
    rw [run_snoc]
    refine confirmGood_step (ih ?_) (hmarks events event [] rfl)
    intro before other after hsplit
    exact hmarks before other (after ++ [event]) (by rw [hsplit, List.append_assoc]; rfl)

end

/-- In every run that fails in no save of a mark, a confirmation that changes the
stored record promotes the slot that runs, which was handed over as pending. -/
theorem confirms_running (board : Board) {copies : Copies} (hp : Provisioned copies)
    (slots : Slots) {events : List Event}
    (hmarks : MarksSaved board (firstDevice copies slots) events) {candidate : BootCandidate}
    (hmode : ((firstDevice copies slots).run board events).mode = .Running candidate)
    (save : SaveOutcome) :
    let device := (firstDevice copies slots).run board events
    let before := boot_state_store_load device.copies
    let after := boot_state_store_load (device.step board (.Confirm save)).copies
    after ≠ before →
      after.active_slot = candidate.slot ∧
        status_for_slot after candidate.slot = BOOT_SLOT_STATUS_CONFIRMED ∧
        candidate.boot_pending = true := by
  intro device before after hchanged
  have hgood := confirmGood_run hp slots hmarks
  have hcopies : after =
      boot_state_store_load (platform_confirm_pending_boot device.copies save).2.1 :=
    congrArg boot_state_store_load (confirm_step_copies hmode save)
  rcases confirm_stored device.copies hgood.reachable.store.good save with
    hload | ⟨hpending, hroom, hload⟩
  · exact absurd (hcopies.trans hload) hchanged
  · rw [← hcopies] at hload
    obtain ⟨hslot, htrial⟩ := (hgood.running candidate hmode hpending).resolve_left hroom
    have hspec := (confirm_pending_spec (pending_slot_valid (load_inRange _) hpending)).2
    rw [hslot, status_of_policy hload]
    exact ⟨(active_slot_of_policy hload).trans hspec.active_slot, hspec.confirmed, htrial⟩

/-- Saves that complete or lose power save every mark. -/
theorem marksSaved_of_reliable {board : Board} {device : Device} {events : List Event}
    (h : ∀ event ∈ events, event.Reliable) : MarksSaved board device events := by
  intro before event after hsplit
  have hr := h event (by rw [hsplit]; exact List.mem_append_right _ List.mem_cons_self)
  cases event with
  | Boot ram traffic count_save bad_save =>
    exact fun _ _ _ => ⟨fun _ => hr.1, fun _ _ => ⟨hr.2, Or.inl hr.1⟩⟩
  | Packet delivery => trivial
  | Confirm save => trivial

/-- The first update of a fresh F446 is confirmed after its first boot. -/
theorem confirms_running_small : ∃ image_crc32,
    let events := activationSession image_crc32 ++ [quietBoot]
    let device := (firstDevice erasedCopies erasedSlots).run .F446 events
    let before := boot_state_store_load device.copies
    let after := boot_state_store_load (device.step .F446 (.Confirm .Completes)).copies
    let candidate := candidateFor .F446 BOOT_SLOT_A true
    after ≠ before →
      after.active_slot = candidate.slot ∧
        status_for_slot after candidate.slot = BOOT_SLOT_STATUS_CONFIRMED ∧
        candidate.boot_pending = true := by
  obtain ⟨image_crc32, hawaits⟩ := activationSession_run
  refine ⟨image_crc32, confirms_running .F446 .erased erasedSlots (marksSaved_of_reliable
    (reliable_boots (activationSession_reliable image_crc32) 1)) ?_ .Completes⟩
  have hmode := (trial_boot hawaits.pending hawaits.due hawaits.bootable).1
  show ((firstDevice erasedCopies erasedSlots).run .F446
    (activationSession image_crc32 ++ [quietBoot])).mode = _
  rw [run_snoc]
  exact hmode

/-! ## A mark that is not saved -/

/-- The slot is pending with some attempts stored, beside an active slot that boots. -/
structure Tried (board : Board) (slot active : UInt32) (attempts : Nat) (device : Device) :
    Prop where
  store : StoreGood device.copies
  active_slot : (boot_state_store_load device.copies).active_slot = active
  pending_slot : (boot_state_store_load device.copies).pending_slot = slot
  attempts_eq : (boot_state_store_load device.copies).pending_attempts.toNat = attempts
  status : status_for_slot (boot_state_store_load device.copies) slot = BOOT_SLOT_STATUS_PENDING
  generation : generationOf (boot_state_store_load device.copies) = attempts + 1
  bootable : Bootable board device.slots slot
  active_bootable : Bootable board device.slots active

section
variable {board : Board} {slot active : UInt32} {attempts : Nat} {device : Device}

theorem slot_ne_none {slot : UInt32} (h : slot_is_valid slot) : slot ≠ BOOT_STATE_NO_SLOT := by
  rcases h with rfl | rfl <;> decide

/-- A trial boot counts one more attempt. -/
theorem tried_boot (hslot : slot_is_valid slot) (h : Tried board slot active attempts device)
    (hfew : attempts < 3) :
    Tried board slot active (attempts + 1) (device.step board quietBoot) := by
  have due : TrialDue (boot_state_store_load device.copies) := by
    refine ⟨?_, ?_, ?_⟩
    · rw [h.pending_slot]
      exact slot_ne_none hslot
    · rw [UInt32.lt_iff_toNat_lt, h.attempts_eq]
      exact hfew
    · rw [h.pending_slot]
      exact h.status
  obtain ⟨-, hslots, hcopies, -⟩ := trial_boot h.pending_slot due h.bootable
  have hload : boot_state_store_load (device.step board quietBoot).copies =
      countAttempt (boot_state_store_load device.copies) := by
    rw [hcopies]
    refine load_completed (.count due) ?_
    rw [h.generation]
    omega
  constructor
  case store =>
    rw [hcopies]
    exact storeGood_save h.store (recordStep_marked (.count due) (load_inRange _)) .Completes
  case active_slot => rw [hload, countAttempt_active_slot]; exact h.active_slot
  case pending_slot => rw [hload, countAttempt_pending_slot]; exact h.pending_slot
  case attempts_eq => rw [hload, (attempts_of_due due).2, h.attempts_eq]
  case status => rw [hload]; exact (countAttempt_status _ slot).trans h.status
  case generation =>
    rw [hload, recordStep_generationOf (.count due) (load_inRange _), h.generation]
    omega
  case bootable => rw [hslots]; exact h.bootable
  case active_bootable => rw [hslots]; exact h.active_bootable

theorem tried_boots (hslot : slot_is_valid slot) (h : Tried board slot active 0 device) (n : Nat)
    (hfew : n ≤ 3) : Tried board slot active n (device.run board (List.replicate n quietBoot)) := by
  induction n with
  | zero => exact h
  | succ n ih =>
    rw [List.replicate_succ', run_snoc]
    exact tried_boot hslot (ih (by omega)) (by omega)

/-- A boot whose first save fails before it has changed anything. -/
def failingBoot : Event := .Boot (fun _ => 0) false (.Fails 0) .Completes

/-- A confirmation that is saved comes into force, and leaves the slots. -/
theorem confirm_completes {candidate : BootCandidate} (hmode : device.mode = .Running candidate)
    (hp : (boot_state_store_load device.copies).pending_slot ≠ BOOT_STATE_NO_SLOT)
    (hroom : generationOf (boot_state_store_load device.copies) + 1 < 2 ^ 32) :
    boot_state_store_load (device.step board (.Confirm .Completes)).copies =
        boot_policy_confirm_pending (boot_state_store_load device.copies) ∧
      (device.step board (.Confirm .Completes)).slots = device.slots := by
  have hsaved : (platform_confirm_pending_boot device.copies .Completes).2.1 =
      (boot_state_store_save_next device.copies
        (boot_policy_confirm_pending (boot_state_store_load device.copies)) .Completes).1 := by
    have hchanged := (confirm_pending_spec (pending_slot_valid (load_inRange _) hp)).1
    unfold platform_confirm_pending_boot boot_policy_confirm_pending
    simp only [hchanged, not_true_eq_false, if_false]
  constructor
  · rw [confirm_step_copies hmode, hsaved]
    exact load_completed (.confirm hp) hroom
  · unfold Device.step
    rw [hmode]

/-- After three attempts, a failed save of the mark leaves the slot pending while
the active one runs, and the confirmation promotes it. -/
theorem failing_confirms (hslot : slot_is_valid slot) (h : Tried board slot active 3 device) :
    let last := device.step board failingBoot
    let after := boot_state_store_load (last.step board (.Confirm .Completes)).copies
    last.mode = .Running (candidateFor board active false) ∧
      after ≠ boot_state_store_load last.copies ∧ after.active_slot = slot := by
  have hp : (boot_state_store_load device.copies).pending_slot ≠ BOOT_STATE_NO_SLOT := by
    rw [h.pending_slot]
    exact slot_ne_none hslot
  have exhausted : Exhausted (boot_state_store_load device.copies) := by
    refine ⟨hp, ?_, ?_⟩
    · rw [ge_iff_le, UInt32.le_iff_toNat_le, h.attempts_eq]
      exact Nat.le_refl 3
    · rw [h.pending_slot]
      exact h.status
  have hactive := h.active_bootable
  rw [← h.active_slot] at hactive
  have hj : Jumps board false (.Fails 0) .Completes device.slots device.copies (fun _ => 0)
      (candidateFor board (boot_state_store_load device.copies).active_slot false) _ _ :=
    ⟨zero_ne_magic, rfl, .exhausted exhausted, ⟨fun _ => rfl, fun h => absurd h (by simp)⟩, hactive⟩
  have hmode :
      (device.step board failingBoot).mode = .Running (candidateFor board active false) := by
    unfold failingBoot Device.step
    dsimp only
    rw [main_of_jumps hj, modeOf_jumpTo, h.active_slot]
  have hcopies : (device.step board failingBoot).copies = device.copies := by
    unfold failingBoot Device.step
    dsimp only
    rw [main_of_jumps hj]
    exact save_unwritten device.copies _ (rfl : (SaveOutcome.Fails 0).steps = 0)
  have hload := (@confirm_completes board (device.step board failingBoot) _ hmode
    (by rw [hcopies]; exact hp) (by rw [hcopies, h.generation]; decide)).1
  have hspec := (confirm_pending_spec (pending_slot_valid (load_inRange _) hp)).2
  dsimp only
  rw [hload, hcopies]
  refine ⟨hmode, ?_, hspec.active_slot.trans h.pending_slot⟩
  intro hsame
  have hnone := congrArg BootStateRecord.pending_slot hsame
  exact hp (hnone.symm.trans hspec.pending_slot)

end

/-! ## The slot beside the download -/

section
variable {board : Board} {delivery : Delivery} {state : UpdateState} {slot other : UInt32}

/-- The update writes the slot: the next BEGIN would, and an active session does. -/
structure Writes (slot : UInt32) (state : UpdateState) : Prop where
  begin_slot : beginSlot state = slot
  target : state.session.session_active = true → state.session.target_slot = slot

theorem writes_first {copies : Copies} (slots : Slots) :
    Writes (targetSlot copies) (firstState copies slots) :=
  ⟨rfl, nofun⟩

/-- A packet leaves the other slot. -/
theorem other_slot_kept (hflash : LawfulFlash delivery.flash) (ho : slot_is_valid other)
    (hne : other ≠ slot) (h : Writes slot state) :
    (processOne board delivery state).2.slots.image other = state.slots.image other := by
  have step := processOne_step board delivery state
  generalize (processOne board delivery state).2 = next at step
  generalize (processOne board delivery state).1 = status at step
  have herase : other ≠ beginSlot state := by
    rw [h.begin_slot]
    exact hne
  have hwrite : state.session.session_active = true → other ≠ state.session.target_slot := by
    intro active
    rw [h.target active]
    exact hne
  cases step with
  | begin_failed => exact hflash.erase_other _ _ _ _ ho herase
  | begun => exact hflash.erase_other _ _ _ _ ho herase
  | block_failed command active => exact hflash.write_other _ _ _ _ _ ho (hwrite active)
  | block command active => exact hflash.write_other _ _ _ _ _ ho (hwrite active)
  | idle => rfl
  | ended => rfl
  | validated => rfl
  | activate_failed => rfl
  | activated => rfl
  | aborted => rfl

/-- Without an ACTIVATE, the update goes on with its slot. -/
theorem writes_kept (hquiet : delivery.packet.command ≠ UPDATE_CMD_ACTIVATE)
    (h : Writes slot state) : Writes slot (processOne board delivery state).2 := by
  have step := processOne_step board delivery state
  generalize (processOne board delivery state).2 = next at step
  generalize (processOne board delivery state).1 = status at step
  cases step with
  | begun => exact ⟨h.begin_slot, fun _ => h.begin_slot⟩
  | aborted => exact ⟨h.begin_slot, nofun⟩
  | activate_failed command => exact absurd command hquiet
  | activated command => exact absurd command hquiet
  | idle => exact h
  | begin_failed => exact ⟨h.begin_slot, h.target⟩
  | block_failed => exact ⟨h.begin_slot, h.target⟩
  | block => exact ⟨h.begin_slot, h.target⟩
  | ended => exact ⟨h.begin_slot, h.target⟩
  | validated => exact ⟨h.begin_slot, h.target⟩

/-- An update up to its ACTIVATE leaves the other slot. -/
theorem slot_kept {deliveries : List Delivery} (hflash : ∀ d ∈ deliveries, LawfulFlash d.flash)
    (hquiet : ∀ d ∈ deliveries, d.packet.command ≠ UPDATE_CMD_ACTIVATE)
    (hlast : LawfulFlash delivery.flash) (ho : slot_is_valid other) (hne : other ≠ slot)
    (h : Writes slot state) :
    (processAll board (deliveries ++ [delivery]) state).2.slots.image other =
      state.slots.image other := by
  induction deliveries generalizing state with
  | nil => exact other_slot_kept hlast ho hne h
  | cons first rest ih =>
    have hfirst := @other_slot_kept board first state slot other
      (hflash first (List.mem_cons_self ..)) ho hne h
    have hrest := ih (fun d hd => hflash d (List.mem_cons_of_mem _ hd))
      (fun d hd => hquiet d (List.mem_cons_of_mem _ hd))
      (@writes_kept board first state slot (hquiet first (List.mem_cons_self ..)) h)
    exact hrest.trans hfirst

/-- The download and the one ACTIVATE of the small image leave the other slot. -/
theorem small_slot_kept {copies : Copies} (slots : Slots) (image_crc32 : UInt32)
    (ho : slot_is_valid other) (hne : other ≠ targetSlot copies) :
    (processAll .F446 (smallDownload image_crc32 ++
      [plain .F446 (bare UPDATE_CMD_ACTIVATE 7)])
        (firstState copies slots)).2.slots.image other = slots.image other := by
  have hquiet : ∀ d ∈ smallDownload image_crc32, d.packet.command ≠ UPDATE_CMD_ACTIVATE := by
    intro d hd
    obtain ⟨packet, hpacket, rfl⟩ := List.mem_map.mp hd
    exact run_update_quiet hpacket
  exact @slot_kept .F446 (plain .F446 (bare UPDATE_CMD_ACTIVATE 7)) (firstState copies slots)
    (targetSlot copies) other (smallDownload image_crc32) (plain_lawful _ _) hquiet
    (driver_lawful .F446 noFault) ho hne (writes_first slots)

end

/-- After one activation, the slot is pending with no attempt stored. -/
theorem activated_tried {board : Board} {first : BootUpdateSession} {copies : Copies}
    {image_crc32 session_id version : UInt32} {state : UpdateState} (hg : StoreGood state.copies)
    (h : Activated first copies (smallBinary 0 2) image_crc32 session_id version 1 state)
    (hzero : generationOf (boot_state_store_load copies) = 0)
    (hactive : Bootable board state.slots (boot_state_store_load copies).active_slot) :
    Tried board (targetSlot copies) (boot_state_store_load copies).active_slot 0
      (ofUpdate state) := by
  have hvalid := targetSlot_valid copies
  have hrecord := h.record
  obtain ⟨hpending, hdue⟩ := activated_due h
  have hactive_slot := congrArg BootStateRecord.active_slot hrecord
  have hattempts := congrArg BootStateRecord.pending_attempts hrecord
  rw [unstamped_pending_attempts, unstamped_pending_attempts,
    mark_slot_pending_attempts _ _ _ hvalid] at hattempts
  constructor
  case store => exact hg
  case active_slot =>
    rwa [unstamped_active_slot, unstamped_active_slot,
      mark_slot_pending_active_slot _ _ _ hvalid] at hactive_slot
  case pending_slot => exact hpending
  case attempts_eq => exact congrArg UInt32.toNat hattempts
  case status => rw [← hpending]; exact hdue.2.2
  case generation =>
    have hgen := h.generation
    rw [hzero] at hgen
    exact hgen
  case bootable => exact small_bootable h.holds
  case active_bootable => exact hactive

theorem targetSlot_confirmedA : targetSlot (image_for_mode .ConfirmedA) = BOOT_SLOT_B := by
  unfold targetSlot
  rw [load_image_for_mode]
  rfl

theorem active_confirmedA :
    (boot_state_store_load (image_for_mode .ConfirmedA)).active_slot = BOOT_SLOT_A := by
  rw [load_image_for_mode]
  rfl

/-- The activation of slot B leaves the small image in slot A. -/
theorem small_slot_a (image_crc32 : UInt32) :
    little_endian.Holds ((processAll .F446 (smallDownload image_crc32 ++
      [plain .F446 (bare UPDATE_CMD_ACTIVATE 7)])
        (firstState (image_for_mode .ConfirmedA) smallSlots)).2.slots.image BOOT_SLOT_A)
      (smallBinary 0 2) := by
  have hne : BOOT_SLOT_A ≠ targetSlot (image_for_mode .ConfirmedA) := by
    rw [targetSlot_confirmedA]
    decide
  rw [small_slot_kept smallSlots image_crc32 (Or.inl rfl) hne]
  exact smallSlots_holds BOOT_SLOT_A

/-- Slot B is activated next to a confirmed slot A, used up in three boots, and
not marked in a fourth one that jumps to slot A. Its confirmation promotes slot B. -/
theorem other_image_confirmed : ∃ image_crc32,
    let events := activationSession image_crc32 ++ List.replicate 3 quietBoot ++ [failingBoot]
    let device := (firstDevice (image_for_mode .ConfirmedA) smallSlots).run .F446 events
    let after := boot_state_store_load (device.step .F446 (.Confirm .Completes)).copies
    device.mode = .Running (candidateFor .F446 BOOT_SLOT_A false) ∧
      after ≠ boot_state_store_load device.copies ∧ after.active_slot = BOOT_SLOT_B := by
  obtain ⟨image_crc32, version, hdevice, hactivated⟩ :=
    activation_run (.image .ConfirmedA) smallSlots
  have hgood := activation_good (.image .ConfirmedA) smallSlots (smallDownload image_crc32 ++
    [plain .F446 (bare UPDATE_CMD_ACTIVATE 7)])
  have ha := small_slot_a image_crc32
  have hbootable : Bootable .F446 _ BOOT_SLOT_A := small_bootable ha
  rw [← active_confirmedA] at hbootable
  have htried := activated_tried hgood hactivated (provisioned_generation (.image .ConfirmedA))
    hbootable
  rw [targetSlot_confirmedA, active_confirmedA, ← hdevice] at htried
  have hthird := tried_boots (Or.inr rfl) htried 3 (Nat.le_refl 3)
  rw [← run_append] at hthird
  refine ⟨image_crc32, ?_⟩
  dsimp only
  rw [run_snoc]
  exact failing_confirms (Or.inr rfl) hthird

end stm32_vibe.running_image
