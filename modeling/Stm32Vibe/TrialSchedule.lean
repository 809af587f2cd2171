-- What a device boots while nobody activates an image. A settled device keeps its
-- active image whatever else happens to it. An image that is never confirmed has
-- its trial boots, one after the other, and then the active image has its turn.
import Stm32Vibe.ActiveSlotLaws
import Stm32Vibe.RunningImage

namespace stm32_vibe.trial_schedule

open boot_state boot_policy boot_state_store save_history boot_runtime boot_flash update_protocol
  update_session finalize_image uart_update repeated_update transfer_laws boot_main handover device
  started_slots trial_boots running_image

/-! ## One boot -/

/-- The memory holds no request for an update. -/
def NoRequest (board : Board) (ram : Ram) : Prop :=
  ram (BOOT_UPDATE_REQUEST_ADDR board).toNat ≠ UPDATE_HANDOFF_MAGIC

instance (board : Board) (ram : Ram) : Decidable (NoRequest board ram) :=
  inferInstanceAs (Decidable (_ ≠ _))

/-- The checks of a slot read nothing but its image. -/
theorem bootable_congr {board : Board} {slots slots' : Slots} {slot : UInt32}
    (h : slots'.image slot = slots.image slot) (hb : Bootable board slots slot) :
    Bootable board slots' slot := by
  obtain ⟨himage, hvectors, hrelocation⟩ := hb
  refine ⟨?_, ?_, ?_⟩
  · unfold ImageAccepted at himage ⊢
    rwa [h]
  · unfold VectorsAccepted at hvectors ⊢
    rwa [h]
  · unfold RelocationAccepted at hrelocation ⊢
    rwa [h]

section
variable {board : Board} {device : Device} {ram : Ram} {count_save bad_save : SaveOutcome}

/-- A boot that is asked for an update, or sees traffic, saves nothing. -/
theorem boot_updates {traffic : Bool} (h : ¬ (NoRequest board ram ∧ traffic = false)) :
    device.step board (.Boot ram traffic count_save bad_save) =
      { device with mode := .Update boot_update_session_init } := by
  have hmain : (main board traffic count_save bad_save device.slots device.copies ram).1 =
      .UpdateMode ∧
      (main board traffic count_save bad_save device.slots device.copies ram).2.copies =
        device.copies ∧
      (main board traffic count_save bad_save device.slots device.copies ram).2.saves = [] := by
    unfold main update_handoff_take
    by_cases hr : NoRequest board ram
    · have htraffic : traffic = true := by simpa [hr] using h
      have hword : ram (BOOT_UPDATE_REQUEST_ADDR board).toNat ≠ UPDATE_HANDOFF_MAGIC := hr
      simp [hword, htraffic]
    · have hword : ram (BOOT_UPDATE_REQUEST_ADDR board).toNat = UPDATE_HANDOFF_MAGIC :=
        not_not.mp hr
      simp [hword]
  obtain ⟨hend, hcopies, hsaves⟩ := hmain
  unfold Device.step
  dsimp only
  rw [hend, hcopies, hsaves, List.append_nil]
  rfl

/-- Past the probe, a boot makes the saves of its path and starts its candidate. -/
theorem boot_starts {candidate : BootCandidate} {last : BootStateRecord}
    {saved : List BootStateRecord} (hr : NoRequest board ram)
    (path : BootPath board device.slots (boot_state_store_load device.copies) candidate last saved)
    (hs : SavesReturn saved count_save bad_save) (hb : Bootable board device.slots candidate.slot) :
    let after := device.step board (.Boot ram false count_save bad_save)
    after.mode = .Running candidate ∧ after.slots = device.slots ∧
      after.copies =
        (BootMemory.saveAll { copies := device.copies, ram, saves := [] } saved count_save
          bad_save).copies := by
  have hj : Jumps board false count_save bad_save device.slots device.copies ram candidate last
      saved := ⟨hr, rfl, path, hs, hb⟩
  unfold Device.step
  dsimp only
  rw [main_of_jumps hj]
  exact ⟨modeOf_jumpTo .., rfl, rfl⟩

end

/-! ## A settled device -/

/-- Nothing is pending, and no update in progress writes the active slot, which boots. -/
structure Settled (board : Board) (active : UInt32) (device : Device) : Prop where
  active_slot : (boot_state_store_load device.copies).active_slot = active
  none_pending : (boot_state_store_load device.copies).pending_slot = BOOT_STATE_NO_SLOT
  runnable : slot_status_is_runnable (status_for_slot (boot_state_store_load device.copies) active)
  bootable : Bootable board device.slots active
  session : ∀ session, device.mode = .Update session → session.session_active = true →
    session.target_slot = otherSlot active

/-- Anything but an ACTIVATE. -/
def Harmless : Event → Prop
  | .Packet delivery =>
    delivery.packet.command ≠ UPDATE_CMD_ACTIVATE ∧ LawfulFlash delivery.flash
  | _ => True

section
variable {board : Board} {active : UInt32} {device : Device}

theorem active_valid (h : Settled board active device) : slot_is_valid active := by
  rw [← h.active_slot]
  exact (load_inRange _).active_slot

/-- The next update of a settled device goes to the other slot. -/
theorem settled_target (h : Settled board active device) :
    boot_policy_inactive_slot (boot_state_store_load device.copies) = otherSlot active := by
  have hvalid := h.none_pending
  unfold boot_policy_inactive_slot
  rw [h.active_slot, if_neg (by rw [hvalid]; decide), if_pos h.runnable]

/-- The update loop of a settled device writes the other slot only. -/
theorem settled_writes (h : Settled board active device) {session : BootUpdateSession}
    (hmode : device.mode = .Update session) :
    Writes (otherSlot active) (device.updateState session) :=
  ⟨settled_target h, fun hactive => h.session session hmode hactive⟩

/-- An event leaves what the active slot needs, and the device settled. -/
structure StaysSettled (board : Board) (active : UInt32) (before after : Device) : Prop where
  settled : Settled board active after
  copies_eq : after.copies = before.copies
  saves_eq : after.saves = before.saves
  image_eq : after.slots.image active = before.slots.image active

theorem staysSettled (h : Settled board active device) {after : Device}
    (hcopies : after.copies = device.copies) (hsaves : after.saves = device.saves)
    (himage : after.slots.image active = device.slots.image active)
    (hsession : ∀ session, after.mode = .Update session → session.session_active = true →
      session.target_slot = otherSlot active) :
    StaysSettled board active device after := by
  refine ⟨⟨?_, ?_, ?_, bootable_congr himage h.bootable, hsession⟩, hcopies, hsaves, himage⟩
  · rw [hcopies]
    exact h.active_slot
  · rw [hcopies]
    exact h.none_pending
  · rw [hcopies]
    exact h.runnable

/-- A settled device that boots undisturbed runs its active image. -/
theorem settled_boot (h : Settled board active device) {ram : Ram} (hr : NoRequest board ram)
    (count_save bad_save : SaveOutcome) :
    let after := device.step board (.Boot ram false count_save bad_save)
    after.mode = .Running (candidateFor board active false) ∧
      StaysSettled board active device after := by
  have path : BootPath board device.slots (boot_state_store_load device.copies)
      (candidateFor board active false) (boot_state_store_load device.copies) [] := by
    have hpath := @BootPath.active board device.slots (boot_state_store_load device.copies)
      (fun he => he.1 h.none_pending) (fun hd => hd.1 h.none_pending)
    rwa [h.active_slot] at hpath
  have hreturns : SavesReturn [] count_save bad_save := ⟨nofun, nofun⟩
  have hsaves : (device.step board (.Boot ram false count_save bad_save)).saves =
      device.saves := by
    have hj : Jumps board false count_save bad_save device.slots device.copies ram
        (candidateFor board active false) _ [] := ⟨hr, rfl, path, hreturns, h.bootable⟩
    unfold Device.step
    dsimp only
    rw [main_of_jumps hj]
    exact List.append_nil _
  obtain ⟨hmode, hslots, hcopies⟩ := boot_starts hr path hreturns h.bootable
  refine ⟨hmode, staysSettled h hcopies hsaves (congrArg (·.image active) hslots) ?_⟩
  intro session hupdate
  exact nomatch hmode.symm.trans hupdate

theorem settled_packet (h : Settled board active device) {delivery : Delivery}
    (hquiet : delivery.packet.command ≠ UPDATE_CMD_ACTIVATE) (hflash : LawfulFlash delivery.flash) :
    StaysSettled board active device (device.step board (.Packet delivery)) := by
  by_cases hupdate : ∃ session, device.mode = .Update session
  · obtain ⟨session, hmode⟩ := hupdate
    have hwrites := settled_writes h hmode
    have hkept := @other_slot_kept board delivery _ _ _ hflash (active_valid h)
      (active_slot_laws.other_ne (active_valid h)).symm hwrites
    have hnext := @writes_kept board delivery _ _ hquiet hwrites
    have hstore : (processOne board delivery (device.updateState session)).2.copies =
          device.copies ∧
        (processOne board delivery (device.updateState session)).2.saves = device.saves := by
      rcases saves_of_step (processOne_step board delivery (device.updateState session)) with
        hsame | ⟨hactivate, -⟩
      · exact hsame
      · exact absurd hactivate hquiet
    have hslots : (device.step board (.Packet delivery)).slots =
        (processOne board delivery (device.updateState session)).2.slots := by
      unfold Device.step
      rw [hmode]
      dsimp only
      split <;> rfl
    obtain ⟨hcopies, hsaves, hlast⟩ := packet_step hmode delivery
    refine staysSettled h (hcopies.trans hstore.1) (hsaves.trans hstore.2)
      ((congrArg (·.image active) hslots).trans hkept) ?_
    intro next hnextmode hactive
    rcases hlast with hoff | hup
    · exact nomatch hoff.symm.trans hnextmode
    · obtain rfl : _ = next := Mode.Update.inj (hup.symm.trans hnextmode)
      exact hnext.target hactive
  · rw [packet_ignored fun session hs => hupdate ⟨session, hs⟩]
    exact ⟨h, rfl, rfl, rfl⟩

/-- With nothing pending there is nothing to confirm. -/
theorem settled_confirm (h : Settled board active device) (save : SaveOutcome) :
    device.step board (.Confirm save) = device := by
  by_cases hrunning : ∃ candidate, device.mode = .Running candidate
  · obtain ⟨candidate, hmode⟩ := hrunning
    have hnothing : platform_confirm_pending_boot device.copies save =
        (true, device.copies, []) := by
      unfold platform_confirm_pending_boot
      rw [confirm_no_pending h.none_pending]
      rfl
    unfold Device.step
    rw [hmode]
    dsimp only
    rw [hnothing, List.append_nil]
    cases device
    simp_all
  · exact confirm_ignored (fun candidate hc => hrunning ⟨candidate, hc⟩) save

theorem settled_step (h : Settled board active device) {event : Event} (hevent : Harmless event) :
    StaysSettled board active device (device.step board event) := by
  cases event with
  | Boot ram traffic count_save bad_save =>
    by_cases hquiet : NoRequest board ram ∧ traffic = false
    · obtain ⟨hr, rfl⟩ := hquiet
      exact (settled_boot h hr count_save bad_save).2
    · rw [boot_updates hquiet]
      refine staysSettled h rfl rfl rfl ?_
      intro session hmode hactive
      obtain rfl := Mode.Update.inj hmode
      exact nomatch hactive
  | Packet delivery => exact settled_packet h hevent.1 hevent.2
  | Confirm save =>
    rw [settled_confirm h]
    exact ⟨h, rfl, rfl, rfl⟩

theorem settled_steps (h : Settled board active device) {events : List Event}
    (hevents : ∀ event ∈ events, Harmless event) :
    StaysSettled board active device (device.run board events) := by
  induction events generalizing device with
  | nil => exact ⟨h, rfl, rfl, rfl⟩
  | cons event rest ih =>
    have hfirst := settled_step h (hevents event (List.mem_cons_self ..))
    have hrest := ih hfirst.settled (fun e he => hevents e (List.mem_cons_of_mem _ he))
    rw [run_cons]
    exact ⟨hrest.settled, hrest.copies_eq.trans hfirst.copies_eq,
      hrest.saves_eq.trans hfirst.saves_eq, hrest.image_eq.trans hfirst.image_eq⟩

end

/-- Whatever happens to a settled device but an ACTIVATE, it saves nothing and
its active image stays. Every boot that nobody disturbs runs that image. -/
theorem settled_run (board : Board) {active : UInt32} {device : Device}
    (h : Settled board active device) {events : List Event}
    (hevents : ∀ event ∈ events, Harmless event) :
    let after := device.run board events
    after.copies = device.copies ∧ after.saves = device.saves ∧
      after.slots.image active = device.slots.image active ∧
      ∀ ram count_save bad_save, NoRequest board ram →
        (after.step board (.Boot ram false count_save bad_save)).mode =
          .Running (candidateFor board active false) := by
  have hstays := settled_steps h hevents
  exact ⟨hstays.copies_eq, hstays.saves_eq, hstays.image_eq, fun ram count_save bad_save hr =>
    (settled_boot hstays.settled hr count_save bad_save).1⟩

theorem runnable_confirmedA :
    slot_status_is_runnable
      (status_for_slot (boot_state_store_load (image_for_mode .ConfirmedA)) BOOT_SLOT_A) := by
  rw [load_image_for_mode]
  decide

/-- The F446 with the small image confirmed in slot A. -/
theorem settled_confirmedA :
    Settled .F446 BOOT_SLOT_A (firstDevice (image_for_mode .ConfirmedA) smallSlots) := by
  refine ⟨active_confirmedA, ?_, runnable_confirmedA,
    small_bootable (smallSlots_holds BOOT_SLOT_A), nofun⟩
  change (boot_state_store_load (image_for_mode .ConfirmedA)).pending_slot = _
  rw [load_image_for_mode]
  rfl

/-- A download whose image CRC is wrong, after a boot. -/
def failedDownload : List Event :=
  .Boot (fun _ => 0) true .Completes .Completes :: (smallDownload 0x1C0DE).map .Packet

theorem harmless_failedDownload : ∀ event ∈ failedDownload, Harmless event := by
  intro event hevent
  rcases List.mem_cons.mp hevent with rfl | hpacket
  · trivial
  · obtain ⟨delivery, hdelivery, rfl⟩ := List.mem_map.mp hpacket
    obtain ⟨packet, hsent, rfl⟩ := List.mem_map.mp hdelivery
    exact ⟨run_update_quiet hsent, driver_lawful .F446 noFault⟩

/-- The failed download, with image A confirmed. -/
theorem settled_run_downloaded :
    let first := firstDevice (image_for_mode .ConfirmedA) smallSlots
    let after := first.run .F446 failedDownload
    after.copies = first.copies ∧ after.saves = first.saves ∧
      after.slots.image BOOT_SLOT_A = first.slots.image BOOT_SLOT_A ∧
      ∀ ram count_save bad_save, NoRequest .F446 ram →
        (after.step .F446 (.Boot ram false count_save bad_save)).mode =
          .Running (candidateFor .F446 BOOT_SLOT_A false) :=
  settled_run .F446 settled_confirmedA harmless_failedDownload

/-! ## Events that neither download nor confirm -/

def Idle : Event → Prop
  | .Boot _ _ count_save _ => count_save.Reliable
  | .Packet delivery =>
    delivery.packet.command ≠ UPDATE_CMD_BEGIN ∧ delivery.packet.command ≠ UPDATE_CMD_BLOCK ∧
      delivery.packet.command ≠ UPDATE_CMD_ACTIVATE
  | .Confirm _ => False

/-- The image that a boot has started. -/
def started (after : Device) : Event → List BootCandidate
  | .Boot _ _ _ _ =>
    match after.mode with
    | .Running candidate => [candidate]
    | _ => []
  | _ => []

/-- The images that the boots of a run start, in order. -/
def starts (board : Board) (device : Device) : List Event → List BootCandidate
  | [] => []
  | event :: events =>
    started (device.step board event) event ++ starts board (device.step board event) events

theorem started_running {after : Device} {candidate : BootCandidate}
    (h : after.mode = .Running candidate) (ram : Ram) (traffic : Bool)
    (count_save bad_save : SaveOutcome) :
    started after (.Boot ram traffic count_save bad_save) = [candidate] := by
  unfold started
  rw [h]

theorem started_nothing {after : Device} (h : ∀ candidate, after.mode ≠ .Running candidate)
    (event : Event) : started after event = [] := by
  cases event with
  | Boot ram traffic count_save bad_save =>
    unfold started
    cases hmode : after.mode with
    | Off => rfl
    | Update session => rfl
    | Running candidate => exact absurd hmode (h candidate)
  | Packet delivery => rfl
  | Confirm save => rfl

section
variable {board : Board} {device : Device}

/-- A packet that is idle leaves the store and the slots, and starts no session. -/
theorem idle_packet {delivery : Delivery} (h : Idle (.Packet delivery)) :
    let after := device.step board (.Packet delivery)
    after.copies = device.copies ∧ after.slots = device.slots ∧ after.saves = device.saves ∧
      ∀ session, after.mode = .Update session → session.session_active = true →
        ∃ before, device.mode = .Update before ∧ before.session_active = true ∧
          before.target_slot = session.target_slot := by
  obtain ⟨hbegin, hblock, hactivate⟩ := h
  by_cases hupdate : ∃ session, device.mode = .Update session
  · obtain ⟨session, hmode⟩ := hupdate
    have hkept : ∀ {status next},
        PacketStep board delivery.flash delivery.save delivery.packet
            (device.updateState session) status next →
          next.copies = device.copies ∧ next.slots = device.slots ∧ next.saves = device.saves ∧
            (next.session.session_active = true → session.session_active = true ∧
              session.target_slot = next.session.target_slot) := by
      intro status next step
      cases step with
      | idle => exact ⟨rfl, rfl, rfl, fun hactive => ⟨hactive, rfl⟩⟩
      | ended => exact ⟨rfl, rfl, rfl, fun hactive => ⟨hactive, rfl⟩⟩
      | validated => exact ⟨rfl, rfl, rfl, fun hactive => ⟨hactive, rfl⟩⟩
      | aborted => exact ⟨rfl, rfl, rfl, nofun⟩
      | begin_failed command => exact absurd command hbegin
      | begun command => exact absurd command hbegin
      | block_failed command => exact absurd command hblock
      | block command => exact absurd command hblock
      | activate_failed command => exact absurd command hactivate
      | activated command => exact absurd command hactivate
    obtain ⟨hcopies, hslots, hsaves, hactive⟩ :=
      hkept (processOne_step board delivery (device.updateState session))
    unfold Device.step
    rw [hmode]
    dsimp only
    split
    · exact ⟨hcopies, hslots, hsaves, nofun⟩
    · refine ⟨hcopies, hslots, hsaves, ?_⟩
      intro next hnext hon
      obtain rfl := Mode.Update.inj hnext
      exact ⟨session, rfl, hactive hon⟩
  · rw [packet_ignored fun session hs => hupdate ⟨session, hs⟩]
    exact ⟨rfl, rfl, rfl, fun session hs => absurd ⟨session, hs⟩ hupdate⟩

/-- A boot that loses power in its first save leaves the record before it or the saved one. -/
theorem boot_lost {ram : Ram} {count_save bad_save : SaveOutcome} {candidate : BootCandidate}
    {last first : BootStateRecord} (hr : NoRequest board ram)
    (path : BootPath board device.slots (boot_state_store_load device.copies) candidate last
      [first]) (hlost : count_save.isPowerLost = true) :
    let after := device.step board (.Boot ram false count_save bad_save)
    after.mode = .Off ∧ after.slots = device.slots ∧
      (after.copies = device.copies ∨
        after.copies = (boot_state_store_save_next device.copies first count_save).1) := by
  have hreturns : ¬ SavesReturn [first] count_save bad_save := by
    intro h
    exact absurd hlost (by rw [h.first (Nat.le_refl 1)]; decide)
  obtain ⟨n, hmain, -⟩ := main_path_lost hr path hreturns
  unfold Device.step
  dsimp only
  rw [hmain]
  refine ⟨rfl, rfl, ?_⟩
  cases n with
  | zero => exact Or.inl rfl
  | succ n => exact Or.inr (by rw [List.take_of_length_le (by simp)]; rfl)

/-- A boot that saves one record and has a bootable candidate starts it with the
policy of the record in force, or loses power with the old or the new policy. -/
structure BootSaved (before after : Device) (candidate : BootCandidate) (first : BootStateRecord)
    (count_save : SaveOutcome) : Prop where
  slots_eq : after.slots = before.slots
  store : StoreGood after.copies
  outcome :
    (after.mode = .Running candidate ∧
      (boot_state_store_load after.copies).policy = first.policy) ∨
    (after.mode = .Off ∧ count_save ≠ .Completes ∧
      (boot_state_store_load after.copies = boot_state_store_load before.copies ∨
        (boot_state_store_load after.copies).policy = first.policy))

theorem boot_saved {ram : Ram} {count_save bad_save : SaveOutcome} {candidate : BootCandidate}
    {last first : BootStateRecord} (hg : StoreGood device.copies) (hr : NoRequest board ram)
    (path : BootPath board device.slots (boot_state_store_load device.copies) candidate last
      [first])
    (hstep : RecordStep (boot_state_store_load device.copies) first)
    (hroom : generationOf (boot_state_store_load device.copies) + 1 < 2 ^ 32)
    (hc : count_save.Reliable) (hb : Bootable board device.slots candidate.slot) :
    BootSaved device (device.step board (.Boot ram false count_save bad_save)) candidate first
      count_save := by
  have hmarked := recordStep_marked hstep (load_inRange _)
  by_cases hlost : count_save.isPowerLost = true
  · obtain ⟨hmode, hslots, hcopies⟩ :=
      @boot_lost board device ram count_save bad_save candidate last first hr path hlost
    have hcut : count_save ≠ .Completes := by
      rintro rfl
      cases hlost
    rcases hcopies with hcopies | hcopies
    · exact ⟨hslots, by rwa [hcopies], Or.inr ⟨hmode, hcut, Or.inl (by rw [hcopies])⟩⟩
    · refine ⟨hslots, ?_, Or.inr ⟨hmode, hcut, ?_⟩⟩
      · rw [hcopies]
        exact storeGood_save hg hmarked count_save
      · rw [hcopies]
        exact load_old_or_new hstep hg count_save
  · obtain rfl := completes_of_returns hc (Bool.eq_false_iff.mpr hlost)
    obtain ⟨hmode, hslots, hcopies⟩ :=
      @boot_starts board device ram .Completes bad_save candidate last [first] hr path
        ⟨fun _ => rfl, fun h => absurd h (by simp)⟩ hb
    refine ⟨hslots, ?_, Or.inl ⟨hmode, ?_⟩⟩
    · rw [hcopies]
      exact storeGood_save hg hmarked .Completes
    · rw [hcopies]
      exact congrArg BootStateRecord.policy (load_completed hstep hroom)

end

/-! ## An update that is not confirmed -/

/-- The slot is pending with some attempts stored, beside an active slot that
boots. The generations suffice for the attempts that are left and for the mark. -/
structure Unconfirmed (board : Board) (slot active : UInt32) (attempts : Nat) (device : Device) :
    Prop where
  store : StoreGood device.copies
  active_slot : (boot_state_store_load device.copies).active_slot = active
  pending_slot : (boot_state_store_load device.copies).pending_slot = slot
  attempts_eq : (boot_state_store_load device.copies).pending_attempts.toNat = attempts
  few : attempts ≤ 3
  status : status_for_slot (boot_state_store_load device.copies) slot = BOOT_SLOT_STATUS_PENDING
  runnable : slot_status_is_runnable (status_for_slot (boot_state_store_load device.copies) active)
  room : generationOf (boot_state_store_load device.copies) + (3 - attempts) + 1 < 2 ^ 32
  bootable : Bootable board device.slots slot
  active_bootable : Bootable board device.slots active

/-- The slot is marked bad, and the device is settled on the active one. -/
structure RolledBack (board : Board) (slot active : UInt32) (device : Device) : Prop where
  settled : Settled board active device
  bad : status_for_slot (boot_state_store_load device.copies) slot = BOOT_SLOT_STATUS_BAD

section
variable {board : Board} {slot active : UInt32} {attempts : Nat} {device after : Device}

theorem unconfirmed_same (h : Unconfirmed board slot active attempts device)
    (hstore : StoreGood after.copies)
    (hload : boot_state_store_load after.copies = boot_state_store_load device.copies)
    (hslots : after.slots = device.slots) : Unconfirmed board slot active attempts after := by
  obtain ⟨-, active_slot, pending_slot, attempts_eq, few, status, runnable, room, bootable,
    active_bootable⟩ := h
  rw [← hload] at active_slot pending_slot attempts_eq status runnable room
  rw [← hslots] at bootable active_bootable
  exact ⟨hstore, active_slot, pending_slot, attempts_eq, few, status, runnable, room, bootable,
    active_bootable⟩

theorem unconfirmed_pending (hslot : slot_is_valid slot)
    (h : Unconfirmed board slot active attempts device) :
    (boot_state_store_load device.copies).pending_slot ≠ BOOT_STATE_NO_SLOT := by
  rw [h.pending_slot]
  exact slot_ne_none hslot

theorem unconfirmed_due (hslot : slot_is_valid slot)
    (h : Unconfirmed board slot active attempts device) (hfew : attempts < 3) :
    TrialDue (boot_state_store_load device.copies) := by
  refine ⟨unconfirmed_pending hslot h, ?_, ?_⟩
  · rw [UInt32.lt_iff_toNat_lt, h.attempts_eq]
    exact hfew
  · rw [h.pending_slot]
    exact h.status

theorem unconfirmed_exhausted (hslot : slot_is_valid slot)
    (h : Unconfirmed board slot active 3 device) :
    Exhausted (boot_state_store_load device.copies) := by
  refine ⟨unconfirmed_pending hslot h, ?_, ?_⟩
  · rw [ge_iff_le, UInt32.le_iff_toNat_le, h.attempts_eq]
    exact Nat.le_refl 3
  · rw [h.pending_slot]
    exact h.status

/-- With the policy of the counted record in force, one attempt more is stored. -/
theorem unconfirmed_counted (hslot : slot_is_valid slot)
    (h : Unconfirmed board slot active attempts device) (hfew : attempts < 3)
    (hstore : StoreGood after.copies)
    (hpolicy : (boot_state_store_load after.copies).policy =
      (countAttempt (boot_state_store_load device.copies)).policy)
    (hslots : after.slots = device.slots) :
    Unconfirmed board slot active (attempts + 1) after := by
  have due := unconfirmed_due hslot h hfew
  constructor
  case store => exact hstore
  case active_slot =>
    rw [active_slot_of_policy hpolicy, countAttempt_active_slot]
    exact h.active_slot
  case pending_slot =>
    rw [pending_slot_of_policy hpolicy, countAttempt_pending_slot]
    exact h.pending_slot
  case attempts_eq =>
    rw [pending_attempts_of_policy hpolicy, (attempts_of_due due).2, h.attempts_eq]
  case few => exact hfew
  case status =>
    rw [status_of_policy hpolicy]
    exact (countAttempt_status _ slot).trans h.status
  case runnable =>
    rw [status_of_policy hpolicy, countAttempt_status]
    exact h.runnable
  case room =>
    have hroom := h.room
    rw [generation_of_policy hpolicy, recordStep_generationOf (.count due) (load_inRange _)]
    omega
  case bootable => rw [hslots]; exact h.bootable
  case active_bootable => rw [hslots]; exact h.active_bootable

/-- With the policy of the bad mark in force, nothing is pending. -/
theorem rolledBack_marked (hslot : slot_is_valid slot) (hne : active ≠ slot)
    (h : Unconfirmed board slot active attempts device)
    (hpolicy : (boot_state_store_load after.copies).policy =
      (boot_policy_mark_pending_bad (boot_state_store_load device.copies)).policy)
    (hslots : after.slots = device.slots)
    (hmode : ∀ session, after.mode ≠ .Update session) :
    RolledBack board slot active after := by
  constructor
  case settled =>
    constructor
    case active_slot =>
      rw [active_slot_of_policy hpolicy, mark_pending_bad_active_slot]
      exact h.active_slot
    case none_pending =>
      rw [pending_slot_of_policy hpolicy]
      exact mark_pending_bad_pending_slot _
    case runnable =>
      rw [status_of_policy hpolicy, mark_pending_bad_status_ne]
      · exact h.runnable
      · rw [h.pending_slot]
        exact hne
    case bootable => rw [hslots]; exact h.active_bootable
    case session => exact fun session hs => absurd hs (hmode session)
  case bad =>
    have hbad := mark_pending_bad_status (unconfirmed_pending hslot h) (load_inRange device.copies)
    rw [h.pending_slot] at hbad
    rw [status_of_policy hpolicy]
    exact hbad

/-- The first save of a boot completes. -/
def CountSaved : Event → Prop
  | .Boot _ _ count_save _ => count_save = .Completes
  | _ => True

/-- What an idle event does to an unconfirmed update, with what it starts. -/
inductive UnconfirmedStep (board : Board) (slot active : UInt32) (attempts : Nat) (after : Device)
    (event : Event) : List BootCandidate → Prop
  | waits (same : Unconfirmed board slot active attempts after) :
      UnconfirmedStep board slot active attempts after event []
  | trial (few : attempts < 3) (next : Unconfirmed board slot active (attempts + 1) after) :
      UnconfirmedStep board slot active attempts after event [candidateFor board slot true]
  /-- Power went after the attempt was stored. -/
  | lost (few : attempts < 3) (next : Unconfirmed board slot active (attempts + 1) after)
      (cut : ¬ CountSaved event) : UnconfirmedStep board slot active attempts after event []
  | rolled_back (all : attempts = 3) (next : RolledBack board slot active after) :
      UnconfirmedStep board slot active attempts after event [candidateFor board active false]
  /-- Power went after the mark was stored. -/
  | rolled_back_lost (all : attempts = 3) (next : RolledBack board slot active after)
      (cut : ¬ CountSaved event) : UnconfirmedStep board slot active attempts after event []

/-- A boot that nobody disturbs, before the attempts are used up. -/
theorem unconfirmed_trial (hslot : slot_is_valid slot)
    (h : Unconfirmed board slot active attempts device) (hfew : attempts < 3) {ram : Ram}
    (hr : NoRequest board ram) {count_save bad_save : SaveOutcome} (hc : count_save.Reliable) :
    let event := Event.Boot ram false count_save bad_save
    UnconfirmedStep board slot active attempts (device.step board event) event
      (started (device.step board event) event) := by
  intro event
  have due := unconfirmed_due hslot h hfew
  have path : BootPath board device.slots (boot_state_store_load device.copies)
      (candidateFor board slot true) (countAttempt (boot_state_store_load device.copies))
      [countAttempt (boot_state_store_load device.copies)] := by
    have hpath := @BootPath.trial board device.slots _ due
      (by rw [h.pending_slot]; exact h.bootable.image)
    rwa [h.pending_slot] at hpath
  obtain ⟨hslots, hstore, hrun | ⟨hoff, hcut, hload⟩⟩ :=
    @boot_saved board device ram count_save bad_save _ _ _ h.store hr path (.count due)
      (by have hroom := h.room; omega) hc h.bootable
  · rw [started_running hrun.1]
    exact .trial hfew (unconfirmed_counted hslot h hfew hstore hrun.2 hslots)
  · rw [started_nothing (by rw [hoff]; nofun) event]
    rcases hload with hold | hnew
    · exact .waits (unconfirmed_same h hstore hold hslots)
    · exact .lost hfew (unconfirmed_counted hslot h hfew hstore hnew hslots) hcut

/-- A boot that nobody disturbs, after the last attempt. -/
theorem unconfirmed_last (hslot : slot_is_valid slot) (hne : active ≠ slot)
    (h : Unconfirmed board slot active 3 device) {ram : Ram} (hr : NoRequest board ram)
    {count_save bad_save : SaveOutcome} (hc : count_save.Reliable) :
    let event := Event.Boot ram false count_save bad_save
    UnconfirmedStep board slot active 3 (device.step board event) event
      (started (device.step board event) event) := by
  intro event
  have exhausted := unconfirmed_exhausted hslot h
  have path : BootPath board device.slots (boot_state_store_load device.copies)
      (candidateFor board active false)
      (boot_policy_mark_pending_bad (boot_state_store_load device.copies))
      [boot_policy_mark_pending_bad (boot_state_store_load device.copies)] := by
    have hpath := @BootPath.exhausted board device.slots _ exhausted
    rwa [h.active_slot] at hpath
  obtain ⟨hslots, hstore, hrun | ⟨hoff, hcut, hload⟩⟩ :=
    @boot_saved board device ram count_save bad_save _ _ _ h.store hr path
      (.bad exhausted.1) (by have hroom := h.room; omega) hc h.active_bootable
  · rw [started_running hrun.1]
    exact .rolled_back rfl
      (rolledBack_marked hslot hne h hrun.2 hslots (by rw [hrun.1]; nofun))
  · rw [started_nothing (by rw [hoff]; nofun) event]
    rcases hload with hold | hnew
    · exact .waits (unconfirmed_same h hstore hold hslots)
    · exact .rolled_back_lost rfl
        (rolledBack_marked hslot hne h hnew hslots (by rw [hoff]; nofun)) hcut

theorem unconfirmed_step (hslot : slot_is_valid slot) (hne : active ≠ slot)
    (h : Unconfirmed board slot active attempts device) {event : Event} (hevent : Idle event) :
    UnconfirmedStep board slot active attempts (device.step board event) event
      (started (device.step board event) event) := by
  cases event with
  | Boot ram traffic count_save bad_save =>
    by_cases hquiet : NoRequest board ram ∧ traffic = false
    · obtain ⟨hr, rfl⟩ := hquiet
      by_cases hfew : attempts < 3
      · exact unconfirmed_trial hslot h hfew hr hevent
      · obtain rfl : attempts = 3 := Nat.le_antisymm h.few (Nat.not_lt.mp hfew)
        exact unconfirmed_last hslot hne h hr hevent
    · rw [boot_updates hquiet]
      exact .waits (unconfirmed_same h h.store rfl rfl)
  | Packet delivery =>
    obtain ⟨hcopies, hslots, -, -⟩ := @idle_packet board device delivery hevent
    exact .waits (unconfirmed_same h (by rw [hcopies]; exact h.store) (by rw [hcopies]) hslots)
  | Confirm save => exact hevent.elim

/-- Once rolled back, a device starts the active image only. -/
theorem rolledBack_step (h : RolledBack board slot active device) {event : Event}
    (hevent : Idle event) :
    RolledBack board slot active (device.step board event) ∧
      (started (device.step board event) event = [] ∨
        started (device.step board event) event = [candidateFor board active false]) := by
  have hkept : StaysSettled board active device (device.step board event) →
      RolledBack board slot active (device.step board event) := by
    intro hstays
    refine ⟨hstays.settled, ?_⟩
    rw [hstays.copies_eq]
    exact h.bad
  cases event with
  | Boot ram traffic count_save bad_save =>
    refine ⟨hkept (settled_step h.settled trivial), ?_⟩
    by_cases hquiet : NoRequest board ram ∧ traffic = false
    · obtain ⟨hr, rfl⟩ := hquiet
      exact Or.inr (started_running (settled_boot h.settled hr count_save bad_save).1 ..)
    · rw [boot_updates hquiet]
      exact Or.inl rfl
  | Packet delivery =>
    obtain ⟨hcopies, hslots, hsaves, hsession⟩ := @idle_packet board device delivery hevent
    refine ⟨hkept (staysSettled h.settled hcopies hsaves (by rw [hslots]) ?_), Or.inl rfl⟩
    intro session hmode hactive
    obtain ⟨before, hbefore, hon, htarget⟩ := hsession session hmode hactive
    exact htarget.symm.trans (h.settled.session before hbefore hon)
  | Confirm save => exact hevent.elim

theorem rolledBack_starts (h : RolledBack board slot active device) {events : List Event}
    (hevents : ∀ event ∈ events, Idle event) :
    RolledBack board slot active (device.run board events) ∧
      ∃ n, starts board device events = List.replicate n (candidateFor board active false) := by
  induction events generalizing device with
  | nil => exact ⟨h, 0, rfl⟩
  | cons event rest ih =>
    obtain ⟨hnext, hstarted⟩ := rolledBack_step h (hevents event (List.mem_cons_self ..))
    obtain ⟨hlast, n, hn⟩ := ih hnext (fun e he => hevents e (List.mem_cons_of_mem _ he))
    refine ⟨hlast, ?_⟩
    unfold starts
    rw [hn]
    rcases hstarted with hs | hs
    · exact ⟨n, by rw [hs]; rfl⟩
    · exact ⟨n + 1, by rw [hs]; rfl⟩

/-- The images started from an unconfirmed update: some trials, and then the active image. -/
structure Schedule (board : Board) (slot active : UInt32) (trials : Nat) (after : Device)
    (images : List BootCandidate) : Prop where
  images_eq : images =
    List.replicate (min trials images.length) (candidateFor board slot true) ++
      List.replicate (images.length - trials) (candidateFor board active false)
  rolled_back : trials < images.length → RolledBack board slot active after

theorem schedule_of_active {n : Nat} (h : RolledBack board slot active after) :
    Schedule board slot active 0 after
      (List.replicate n (candidateFor board active false)) := by
  refine ⟨?_, fun _ => h⟩
  rw [List.length_replicate, Nat.zero_min, Nat.sub_zero]
  rfl

theorem schedule_cons {trials : Nat} {images : List BootCandidate}
    (h : Schedule board slot active trials after images) :
    Schedule board slot active (trials + 1) after (candidateFor board slot true :: images) := by
  refine ⟨?_, fun hlt => h.rolled_back (Nat.lt_of_succ_lt_succ hlt)⟩
  rw [List.length_cons, Nat.add_min_add_right, List.replicate_succ, Nat.add_sub_add_right,
    List.cons_append, ← h.images_eq]

/-- The induction is on the events, and the attempts go up as they are stored. -/
theorem unconfirmed_starts (hslot : slot_is_valid slot) (hne : active ≠ slot)
    (h : Unconfirmed board slot active attempts device) {events : List Event}
    (hevents : ∀ event ∈ events, Idle event) :
    ∃ trials ≤ 3 - attempts,
      Schedule board slot active trials (device.run board events) (starts board device events) ∧
        ((∀ event ∈ events, CountSaved event) → trials = 3 - attempts) := by
  induction events generalizing device attempts with
  | nil => exact ⟨3 - attempts, Nat.le_refl _, ⟨by simp [starts], nofun⟩, fun _ => rfl⟩
  | cons event rest ih =>
    have hrest : ∀ e ∈ rest, Idle e := fun e he => hevents e (List.mem_cons_of_mem _ he)
    have hsaved : (∀ e ∈ event :: rest, CountSaved e) →
        CountSaved event ∧ ∀ e ∈ rest, CountSaved e := fun h =>
      ⟨h event (List.mem_cons_self ..), fun e he => h e (List.mem_cons_of_mem _ he)⟩
    have hstep := unconfirmed_step hslot hne h (hevents event (List.mem_cons_self ..))
    rw [run_cons]
    unfold starts
    generalize started (device.step board event) event = images at hstep
    cases hstep with
    | waits same =>
      obtain ⟨trials, hle, hschedule, hall⟩ := ih same hrest
      exact ⟨trials, hle, hschedule, fun h => hall (hsaved h).2⟩
    | trial few next =>
      obtain ⟨trials, hle, hschedule, hall⟩ := ih next hrest
      refine ⟨trials + 1, by omega, schedule_cons hschedule, fun h => ?_⟩
      have hcount := hall (hsaved h).2
      omega
    | lost few next cut =>
      obtain ⟨trials, hle, hschedule, -⟩ := ih next hrest
      exact ⟨trials, by omega, hschedule, fun h => absurd (hsaved h).1 cut⟩
    | rolled_back all next =>
      obtain ⟨hlast, n, hn⟩ := rolledBack_starts next hrest
      refine ⟨0, Nat.zero_le _, ?_, fun _ => by omega⟩
      rw [hn]
      exact @schedule_of_active board slot active _ (n + 1) hlast
    | rolled_back_lost all next cut =>
      obtain ⟨hlast, n, hn⟩ := rolledBack_starts next hrest
      refine ⟨0, Nat.zero_le _, ?_, fun _ => by omega⟩
      rw [hn]
      exact schedule_of_active hlast

end

/-- From an unconfirmed update on, the boots of an idle run start the pending
image at most as often as attempts are left, and then the active image for good.
Without a power loss in the first save of a boot, they start it exactly so often. -/
theorem unconfirmed_schedule (board : Board) {slot active : UInt32} {attempts : Nat}
    {device : Device} (hslot : slot_is_valid slot) (hne : active ≠ slot)
    (h : Unconfirmed board slot active attempts device) {events : List Event}
    (hevents : ∀ event ∈ events, Idle event) :
    let images := starts board device events
    let state := boot_state_store_load (device.run board events).copies
    ∃ trials ≤ 3 - attempts,
      images = List.replicate (min trials images.length) (candidateFor board slot true) ++
          List.replicate (images.length - trials) (candidateFor board active false) ∧
        (trials < images.length → state.pending_slot = BOOT_STATE_NO_SLOT ∧
          status_for_slot state slot = BOOT_SLOT_STATUS_BAD ∧ state.active_slot = active) ∧
        ((∀ event ∈ events, CountSaved event) → trials = 3 - attempts) := by
  obtain ⟨trials, hle, hschedule, hall⟩ := unconfirmed_starts hslot hne h hevents
  refine ⟨trials, hle, hschedule.images_eq, fun hlt => ?_, hall⟩
  have hback := hschedule.rolled_back hlt
  exact ⟨hback.settled.none_pending, hback.bad, hback.settled.active_slot⟩

/-- An activated slot is unconfirmed, and no attempt of it is stored. -/
theorem activated_unconfirmed {board : Board} {first : BootUpdateSession} {copies : Copies}
    {image_crc32 session_id version : UInt32} {state : UpdateState} (hg : StoreGood state.copies)
    (h : Activated first copies (smallBinary 0 2) image_crc32 session_id version 1 state)
    (hzero : generationOf (boot_state_store_load copies) = 0)
    (hactive : Bootable board state.slots (boot_state_store_load copies).active_slot)
    (hne : (boot_state_store_load copies).active_slot ≠ targetSlot copies)
    (hrunnable : slot_status_is_runnable (status_for_slot (boot_state_store_load copies)
      (boot_state_store_load copies).active_slot)) :
    Unconfirmed board (targetSlot copies) (boot_state_store_load copies).active_slot 0
      (ofUpdate state) := by
  have htried := activated_tried hg h hzero hactive
  have hkept := congrArg (status_for_slot · (boot_state_store_load copies).active_slot) h.record
  rw [status_unstamped, status_unstamped,
    mark_slot_pending_status_ne _ _ _ (targetSlot_valid copies) hne] at hkept
  refine ⟨htried.store, htried.active_slot, htried.pending_slot, htried.attempts_eq,
    Nat.zero_le 3, htried.status, ?_, ?_, htried.bootable, htried.active_bootable⟩
  · exact (congrArg slot_status_is_runnable hkept).mpr hrunnable
  · rw [htried.generation]
    decide

/-- The F446 with slot A confirmed, after one activation of the small image for slot B. -/
theorem unconfirmed_activated : ∃ image_crc32,
    Unconfirmed .F446 BOOT_SLOT_B BOOT_SLOT_A 0
      ((firstDevice (image_for_mode .ConfirmedA) smallSlots).run .F446
        (activationSession image_crc32)) := by
  obtain ⟨image_crc32, version, hdevice, hactivated⟩ :=
    activation_run (.image .ConfirmedA) smallSlots
  have hgood := activation_good (.image .ConfirmedA) smallSlots (smallDownload image_crc32 ++
    [plain .F446 (bare UPDATE_CMD_ACTIVATE 7)])
  have hbootable : Bootable .F446 _ BOOT_SLOT_A := small_bootable (small_slot_a image_crc32)
  rw [← active_confirmedA] at hbootable
  have hne : (boot_state_store_load (image_for_mode .ConfirmedA)).active_slot ≠
      targetSlot (image_for_mode .ConfirmedA) := by
    rw [targetSlot_confirmedA, active_confirmedA]
    decide
  have h := activated_unconfirmed hgood hactivated
    (provisioned_generation (.image .ConfirmedA)) hbootable hne
    (by rw [active_confirmedA]; exact runnable_confirmedA)
  rw [targetSlot_confirmedA, active_confirmedA, ← hdevice] at h
  exact ⟨image_crc32, h⟩

/-- Five boots of it. -/
theorem unconfirmed_schedule_five : ∃ image_crc32,
    let device := (firstDevice (image_for_mode .ConfirmedA) smallSlots).run .F446
      (activationSession image_crc32)
    let images := starts .F446 device (List.replicate 5 quietBoot)
    let state := boot_state_store_load (device.run .F446 (List.replicate 5 quietBoot)).copies
    ∃ trials ≤ 3 - 0,
      images = List.replicate (min trials images.length) (candidateFor .F446 BOOT_SLOT_B true) ++
          List.replicate (images.length - trials) (candidateFor .F446 BOOT_SLOT_A false) ∧
        (trials < images.length → state.pending_slot = BOOT_STATE_NO_SLOT ∧
          status_for_slot state BOOT_SLOT_B = BOOT_SLOT_STATUS_BAD ∧
          state.active_slot = BOOT_SLOT_A) ∧
        ((∀ event ∈ List.replicate 5 quietBoot, CountSaved event) → trials = 3 - 0) := by
  obtain ⟨image_crc32, h⟩ := unconfirmed_activated
  refine ⟨image_crc32, unconfirmed_schedule .F446 (Or.inr rfl) (by decide) h ?_⟩
  intro event hevent
  rw [List.eq_of_mem_replicate hevent]
  exact completes_reliable

/-! ## An update that is confirmed -/

section
variable {board : Board} {slot active : UInt32} {attempts : Nat} {device : Device}

theorem idle_slots {events : List Event} (hevents : ∀ event ∈ events, Idle event) :
    (device.run board events).slots = device.slots := by
  induction events generalizing device with
  | nil => rfl
  | cons event rest ih =>
    have hfirst : (device.step board event).slots = device.slots := by
      have hevent := hevents event (List.mem_cons_self ..)
      cases event with
      | Boot ram traffic count_save bad_save => rfl
      | Packet delivery => exact (@idle_packet board device delivery hevent).2.1
      | Confirm save => exact hevent.elim
    rw [run_cons, ih fun e he => hevents e (List.mem_cons_of_mem _ he)]
    exact hfirst

/-- An idle run ends with the update unconfirmed, or rolled back. -/
theorem idle_run (hslot : slot_is_valid slot) (hne : active ≠ slot)
    (h : Unconfirmed board slot active attempts device) {events : List Event}
    (hevents : ∀ event ∈ events, Idle event) :
    (∃ n, Unconfirmed board slot active n (device.run board events)) ∨
      RolledBack board slot active (device.run board events) := by
  induction events generalizing device attempts with
  | nil => exact Or.inl ⟨attempts, h⟩
  | cons event rest ih =>
    have hrest : ∀ e ∈ rest, Idle e := fun e he => hevents e (List.mem_cons_of_mem _ he)
    have hstep := unconfirmed_step hslot hne h (hevents event (List.mem_cons_self ..))
    rw [run_cons]
    generalize started (device.step board event) event = images at hstep
    cases hstep with
    | waits same => exact ih same hrest
    | trial few next => exact ih next hrest
    | lost few next cut => exact ih next hrest
    | rolled_back all next => exact Or.inr (rolledBack_starts next hrest).1
    | rolled_back_lost all next cut => exact Or.inr (rolledBack_starts next hrest).1

/-- A boot that starts the image as a trial leaves the update unconfirmed. -/
theorem unconfirmed_of_trial (hslot : slot_is_valid slot) (hne : active ≠ slot)
    (h : (∃ n, Unconfirmed board slot active n device) ∨ RolledBack board slot active device)
    {ram : Ram} {traffic : Bool} {count_save bad_save : SaveOutcome} (hc : count_save.Reliable)
    (hmode : (device.step board (.Boot ram traffic count_save bad_save)).mode =
      .Running (candidateFor board slot true)) :
    ∃ n, Unconfirmed board slot active n
      (device.step board (.Boot ram traffic count_save bad_save)) := by
  have hstarted := started_running hmode ram traffic count_save bad_save
  rcases h with ⟨n, h⟩ | h
  · have hstep := unconfirmed_step hslot hne h
      (show Idle (.Boot ram traffic count_save bad_save) from hc)
    rw [hstarted] at hstep
    generalize himages : [candidateFor board slot true] = images at hstep
    cases hstep with
    | waits => cases himages
    | trial few next => exact ⟨_, next⟩
    | lost => cases himages
    | rolled_back =>
      have hpending := congrArg BootCandidate.boot_pending (List.singleton_inj.mp himages)
      cases hpending
    | rolled_back_lost => cases himages
  · rcases (rolledBack_step h (show Idle (.Boot ram traffic count_save bad_save) from hc)).2 with
      hs | hs
    · rw [hs] at hstarted
      cases hstarted
    · rw [hs] at hstarted
      have hpending := congrArg BootCandidate.boot_pending (List.singleton_inj.mp hstarted)
      cases hpending

/-- A confirmation of the running image settles the device on the pending slot. -/
theorem settled_confirmed (hslot : slot_is_valid slot) {candidate : BootCandidate}
    (hmode : device.mode = .Running candidate)
    (hpending : (boot_state_store_load device.copies).pending_slot = slot)
    (hroom : generationOf (boot_state_store_load device.copies) + 1 < 2 ^ 32)
    (hb : Bootable board device.slots slot) :
    Settled board slot (device.step board (.Confirm .Completes)) ∧
      (device.step board (.Confirm .Completes)).slots = device.slots := by
  have hp : (boot_state_store_load device.copies).pending_slot ≠ BOOT_STATE_NO_SLOT := by
    rw [hpending]
    exact slot_ne_none hslot
  obtain ⟨hload, hslots⟩ := @confirm_completes board device _ hmode hp hroom
  have hspec := (confirm_pending_spec (pending_slot_valid (load_inRange device.copies) hp)).2
  refine ⟨⟨?_, ?_, ?_, ?_, ?_⟩, hslots⟩
  · rw [hload]
    exact hspec.active_slot.trans hpending
  · rw [hload]
    exact hspec.pending_slot
  · rw [hload, ← hpending]
    exact Or.inr hspec.confirmed
  · rw [hslots]
    exact hb
  · intro session hupdate
    unfold Device.step at hupdate
    rw [hmode] at hupdate
    dsimp only at hupdate
    split at hupdate
    · cases hupdate
    · cases hupdate

/-- The confirmation of a running trial settles the device on its slot. -/
theorem settled_of_confirm (hslot : slot_is_valid slot)
    (h : Unconfirmed board slot active attempts device)
    (hmode : device.mode = .Running (candidateFor board slot true)) :
    Settled board slot (device.step board (.Confirm .Completes)) ∧
      (device.step board (.Confirm .Completes)).slots = device.slots := by
  have hroom := h.room
  exact settled_confirmed hslot hmode h.pending_slot (by omega) h.bootable

end

/-- A trial boot of an unconfirmed update, after any idle run, that the
application confirms. From then on the image stays in its slot and is what boots,
until an ACTIVATE. -/
theorem confirmed_stays (board : Board) {slot active : UInt32} {attempts : Nat} {device : Device}
    (hslot : slot_is_valid slot) (hne : active ≠ slot)
    (h : Unconfirmed board slot active attempts device) {events : List Event}
    (hevents : ∀ event ∈ events, Idle event) {ram : Ram} {traffic : Bool}
    {count_save bad_save : SaveOutcome} (hc : count_save.Reliable)
    (hmode : (device.run board (events ++ [.Boot ram traffic count_save bad_save])).mode =
      .Running (candidateFor board slot true)) {later : List Event}
    (hlater : ∀ event ∈ later, Harmless event) :
    let confirmed := device.run board
      (events ++ [.Boot ram traffic count_save bad_save, .Confirm .Completes])
    let after := confirmed.run board later
    (boot_state_store_load after.copies).active_slot = slot ∧
      after.slots.image slot = device.slots.image slot ∧
      ∀ ram count_save bad_save, NoRequest board ram →
        (after.step board (.Boot ram false count_save bad_save)).mode =
          .Running (candidateFor board slot false) := by
  rw [run_snoc] at hmode
  obtain ⟨n, htrial⟩ := unconfirmed_of_trial hslot hne (idle_run hslot hne h hevents) hc hmode
  obtain ⟨hsettled, hslots⟩ := settled_of_confirm hslot htrial hmode
  have hconfirmed : device.run board
        (events ++ [.Boot ram traffic count_save bad_save, .Confirm .Completes]) =
      ((device.run board events).step board (.Boot ram traffic count_save bad_save)).step board
        (.Confirm .Completes) := run_append board device events _
  dsimp only
  rw [hconfirmed]
  have hstays := settled_steps hsettled hlater
  refine ⟨hstays.settled.active_slot, ?_, fun ram count_save bad_save hr =>
    (settled_boot hstays.settled hr count_save bad_save).1⟩
  rw [hstays.image_eq, hslots]
  exact congrArg (·.image slot) (idle_slots hevents)

theorem first_trial {board : Board} {slot active : UInt32} {device : Device}
    (hslot : slot_is_valid slot) (h : Unconfirmed board slot active 0 device) :
    (device.run board ([] ++ [.Boot (fun _ => 0) false .Completes .Completes])).mode =
      .Running (candidateFor board slot true) :=
  (trial_boot h.pending_slot (unconfirmed_due hslot h (by decide)) h.bootable).1

/-- One trial boot of it, the confirmation and a failed download. -/
theorem confirmed_stays_small : ∃ image_crc32,
    let device := (firstDevice (image_for_mode .ConfirmedA) smallSlots).run .F446
      (activationSession image_crc32)
    let confirmed := device.run .F446 ([] ++
      [.Boot (fun _ => 0) false .Completes .Completes, .Confirm .Completes])
    let after := confirmed.run .F446 failedDownload
    (boot_state_store_load after.copies).active_slot = BOOT_SLOT_B ∧
      after.slots.image BOOT_SLOT_B = device.slots.image BOOT_SLOT_B ∧
      ∀ ram count_save bad_save, NoRequest .F446 ram →
        (after.step .F446 (.Boot ram false count_save bad_save)).mode =
          .Running (candidateFor .F446 BOOT_SLOT_B false) := by
  obtain ⟨image_crc32, h⟩ := unconfirmed_activated
  refine ⟨image_crc32, ?_⟩
  generalize (firstDevice (image_for_mode .ConfirmedA) smallSlots).run .F446
    (activationSession image_crc32) = device at h ⊢
  exact @confirmed_stays .F446 BOOT_SLOT_B BOOT_SLOT_A 0 device (Or.inr rfl) (by decide) h [] nofun
    (fun _ => 0) false .Completes .Completes completes_reliable (first_trial (Or.inr rfl) h)
    failedDownload harmless_failedDownload

end stm32_vibe.trial_schedule
