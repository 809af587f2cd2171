-- Flash that loses bits after it was written. An image or a record with a burst
-- of errors fails its check, so the device goes on with what it had before.
import Stm32Vibe.Lib.CrcBurst
import Stm32Vibe.TrialSchedule

namespace stm32_vibe.flash_damage

open little_endian reflected_crc boot_state boot_policy boot_state_store save_history app_image
  boot_runtime update_protocol update_session boot_main device handover trial_boots trial_schedule

/-! ## A damaged image -/

/-- A burst inside an image of `size` bytes. It leaves the size of the image, and
it leaves the CRC or keeps to it. -/
structure ImageDamage (size : Nat) (errors : Memory) : Prop where
  burst : Burst errors
  inside : ∀ i, errors i ≠ 0 → i < size
  place : (∀ i, errors i ≠ 0 → i < 0x20C ∨ 0x214 ≤ i) ∨ ∀ i, errors i ≠ 0 → 0x210 ≤ i ∧ i < 0x214

theorem flipped_same {m errors : Memory} {i : Nat} (h : errors i = 0) :
    flipped m errors i = m i := by
  simp [flipped, h]

/-- A word without errors. -/
theorem readWord_flipped (m : Memory) {errors : Memory} {i : Nat}
    (h : ∀ k < 4, errors (i + k) = 0) : readWord (flipped m errors) i = readWord m i :=
  readWord_congr fun k hk => flipped_same (h k hk)

/-- A word with errors is another word. -/
theorem errors_of_readWord {m errors : Memory} {i : Nat}
    (h : readWord (flipped m errors) i = readWord m i) : ∀ k < 4, errors (i + k) = 0 := by
  intro k hk
  have hlane : ∀ m : Memory, lane (readWord m i) k = m (i + k) := by
    intro m
    have hpack := lane_pack (fun k => m (i + k)) hk
    simpa [readWord] using hpack
  have hbyte := hlane (flipped m errors)
  rw [h, hlane m] at hbyte
  exact xor_eq_self hbyte.symm

/-- A damaged image is not accepted. -/
theorem damage_rejected {image : Image} {capacity : UInt32} {errors : Memory}
    (hv : (app_image_validate image capacity).status = .Valid)
    (hd : ImageDamage (manifestOf image).image_size.toNat errors) :
    (app_image_validate (flipped image errors) capacity).status ≠ .Valid := by
  intro hafter
  have hbefore := ((app_image_validate_iff _ _).mp hv).crc
  have hcrc := ((app_image_validate_iff _ _).mp hafter).crc
  have hclean : ∀ i, ¬ errors i ≠ 0 → errors i = 0 := fun i => not_not.mp
  have hsize : (manifestOf (flipped image errors)).image_size = (manifestOf image).image_size := by
    apply readWord_flipped
    intro k hk
    apply hclean
    intro hne
    rcases hd.place with hout | hin
    · have hplace := hout _ hne
      omega
    · have hplace := hin _ hne
      omega
  rw [hsize] at hcrc
  unfold image_crc32 at hbefore hcrc
  rcases hd.place with hout | hin
  · -- The CRC word is the same, and the CRC is another one.
    have hword : (manifestOf (flipped image errors)).image_crc32 =
        (manifestOf image).image_crc32 := by
      apply readWord_flipped
      intro k hk
      apply hclean
      intro hne
      have hplace := hout _ hne
      omega
    rw [zeroWindow_flipped image fun i hne hwindow => ?_, hword, ← hbefore] at hcrc
    · exact overMemory_burst (by decide) hd.burst hd.inside hcrc
    · have hplace := hout i hne
      unfold IMAGE_CRC32_OFFSET at hwindow
      omega
  · -- The CRC is the same, and the CRC word is another one.
    have hsame : overMemory CRC32 (zeroWindow (flipped image errors) IMAGE_CRC32_OFFSET)
          (manifestOf image).image_size.toNat =
        overMemory CRC32 (zeroWindow image IMAGE_CRC32_OFFSET)
          (manifestOf image).image_size.toNat := by
      apply overMemory_zeroWindow_congr
      intro i _ hwindow
      apply flipped_same
      apply hclean
      intro hne
      exact hwindow (hin i hne)
    rw [hsame, hbefore] at hcrc
    obtain ⟨i, hne⟩ := hd.burst.some_byte
    have hplace := hin i hne
    have hnone := errors_of_readWord (m := image) hcrc.symm (i - 0x210) (by omega)
    rw [show 0x210 + (i - 0x210) = i by omega] at hnone
    exact hne hnone

/-! ## A damaged slot -/

/-- The slots with errors in one of them. -/
def damaged (slots : Slots) (slot : UInt32) (errors : Memory) : Slots :=
  slots.set slot (flipped (slots.image slot) errors)

/-- Anything but the packets of a download. -/
def NoDownload : Event → Prop
  | .Packet delivery =>
    delivery.packet.command ≠ UPDATE_CMD_BEGIN ∧ delivery.packet.command ≠ UPDATE_CMD_BLOCK
  | _ => True

section
variable {board : Board} {device : Device}

theorem noDownload_slots {event : Event} (h : NoDownload event) :
    (device.step board event).slots = device.slots := by
  cases event with
  | Boot ram traffic count_save bad_save => rfl
  | Packet delivery =>
    by_cases hupdate : ∃ session, device.mode = .Update session
    · obtain ⟨session, hmode⟩ := hupdate
      have hkept : ∀ {status next},
          PacketStep board delivery.flash delivery.save delivery.packet
              (device.updateState session) status next → next.slots = device.slots := by
        intro status next step
        cases step with
        | idle => rfl
        | ended => rfl
        | validated => rfl
        | aborted => rfl
        | begin_failed command => exact absurd command h.1
        | begun command => exact absurd command h.1
        | block_failed command => exact absurd command h.2
        | block command => exact absurd command h.2
        | activate_failed command => rfl
        | activated command => rfl
      have hslots := hkept (processOne_step board delivery (device.updateState session))
      unfold Device.step
      rw [hmode]
      dsimp only
      split
      · exact hslots
      · exact hslots
    · rw [packet_ignored fun session hs => hupdate ⟨session, hs⟩]
  | Confirm save =>
    unfold Device.step
    dsimp only
    split <;> rfl

/-- A boot starts only what is bootable. -/
theorem running_bootable {ram : Ram} {traffic : Bool} {count_save bad_save : SaveOutcome}
    {candidate : BootCandidate}
    (h : (device.step board (.Boot ram traffic count_save bad_save)).mode = .Running candidate) :
    Bootable board device.slots candidate.slot := by
  have hmode : modeOf (main board traffic count_save bad_save device.slots device.copies ram).1 =
      .Running candidate := h
  generalize hend : (main board traffic count_save bad_save device.slots device.copies ram).1 =
    ending at hmode
  cases ending with
  | Jump other vector_base stack_pointer reset_handler got_base =>
    obtain rfl : other = candidate := Mode.Running.inj hmode
    obtain ⟨last, saved, hjumps⟩ := jumps_of_main hend
    exact hjumps.bootable
  | UpdateMode => cases hmode
  | PowerLost => cases hmode

theorem started_bootable {event : Event} {candidate : BootCandidate}
    (h : candidate ∈ started (device.step board event) event) :
    Bootable board device.slots candidate.slot := by
  cases event with
  | Boot ram traffic count_save bad_save =>
    unfold started at h
    cases hmode : (device.step board (.Boot ram traffic count_save bad_save)).mode with
    | Off => simp [hmode] at h
    | Update session => simp [hmode] at h
    | Running other =>
      obtain rfl : candidate = other := by simpa [hmode] using h
      exact running_bootable hmode
  | Packet delivery => cases h
  | Confirm save => cases h

end

/-! ## An update that is damaged before its trial -/

/-- An unconfirmed update whose image was damaged, beside the active image as it was. -/
structure Damaged (board : Board) (slot active : UInt32) (attempts : Nat) (device : Device) :
    Prop where
  before : ∃ slots, Unconfirmed board slot active attempts { device with slots } ∧
    slots.image active = device.slots.image active
  rejected : ¬ ImageAccepted board device.slots slot

/-- The mark of a boot completes or is cut by a power loss. -/
def MarkReliable : Event → Prop
  | .Boot _ _ _ bad_save => bad_save.Reliable
  | _ => True

/-- A boot that nobody disturbs and that completes its saves. -/
def Undisturbed (board : Board) : Event → Prop
  | .Boot ram traffic count_save bad_save =>
    NoRequest board ram ∧ traffic = false ∧ count_save = .Completes ∧ bad_save = .Completes
  | _ => False

section
variable {board : Board} {slot active : UInt32} {attempts : Nat} {device after : Device}

theorem damaged_same (h : Damaged board slot active attempts device)
    (hcopies : StoreGood after.copies)
    (hload : boot_state_store_load after.copies = boot_state_store_load device.copies)
    (hslots : after.slots = device.slots) : Damaged board slot active attempts after := by
  obtain ⟨⟨slots, hbefore, himage⟩, hrejected⟩ := h
  rw [← hslots] at himage hrejected
  exact ⟨⟨slots, unconfirmed_same hbefore hcopies hload rfl, himage⟩, hrejected⟩

theorem damaged_counted (hslot : slot_is_valid slot)
    (h : Damaged board slot active attempts device) (hfew : attempts < 3)
    (hstore : StoreGood after.copies)
    (hpolicy : (boot_state_store_load after.copies).policy =
      (countAttempt (boot_state_store_load device.copies)).policy)
    (hslots : after.slots = device.slots) : Damaged board slot active (attempts + 1) after := by
  obtain ⟨⟨slots, hbefore, himage⟩, hrejected⟩ := h
  rw [← hslots] at himage hrejected
  exact ⟨⟨slots, unconfirmed_counted hslot hbefore hfew hstore hpolicy rfl, himage⟩, hrejected⟩

/-- What is settled with other contents of the inactive slot is settled. -/
theorem rolledBack_congr {slots : Slots}
    (h : RolledBack board slot active { after with slots })
    (himage : slots.image active = after.slots.image active) :
    RolledBack board slot active after := by
  obtain ⟨⟨hactive, hnone, hrunnable, hbootable, hsession⟩, hbad⟩ := h
  exact ⟨⟨hactive, hnone, hrunnable, bootable_congr himage.symm hbootable, hsession⟩, hbad⟩

theorem damaged_marked (hslot : slot_is_valid slot) (hne : active ≠ slot)
    (h : Damaged board slot active attempts device)
    (hpolicy : (boot_state_store_load after.copies).policy =
      (boot_policy_mark_pending_bad (boot_state_store_load device.copies)).policy)
    (hslots : after.slots = device.slots)
    (hmode : ∀ session, after.mode ≠ .Update session) :
    RolledBack board slot active after := by
  obtain ⟨⟨slots, hbefore, himage⟩, -⟩ := h
  rw [← hslots] at himage
  apply rolledBack_congr _ himage
  exact @rolledBack_marked board slot active attempts _ { after with slots } hslot hne hbefore
    hpolicy rfl hmode

theorem damaged_active (h : Damaged board slot active attempts device) :
    Bootable board device.slots active := by
  obtain ⟨⟨slots, hbefore, himage⟩, -⟩ := h
  exact bootable_congr himage.symm hbefore.active_bootable

/-- What an idle event does to a damaged update, with what it starts. -/
inductive DamagedStep (board : Board) (slot active : UInt32) (after : Device) (event : Event) :
    List BootCandidate → Prop
  | waits (attempts : Nat) (next : Damaged board slot active attempts after)
      (disturbed : ¬ Undisturbed board event) : DamagedStep board slot active after event []
  /-- Power went after the mark was stored. -/
  | lost (next : RolledBack board slot active after) (disturbed : ¬ Undisturbed board event) :
      DamagedStep board slot active after event []
  | rolled_back (next : RolledBack board slot active after) :
      DamagedStep board slot active after event [candidateFor board active false]

/-- The mark after the attempt was stored. -/
theorem damaged_mark (hslot : slot_is_valid slot) (hne : active ≠ slot)
    (h : Damaged board slot active attempts device) (hfew : attempts < 3)
    {bad_save : SaveOutcome}
    (hcopies : after.copies =
      (boot_state_store_save_next
        (boot_state_store_save_next device.copies
          (countAttempt (boot_state_store_load device.copies)) .Completes).1
        (boot_policy_mark_pending_bad (countAttempt (boot_state_store_load device.copies)))
        bad_save).1)
    (hslots : after.slots = device.slots) (hmode : ∀ session, after.mode ≠ .Update session) :
    (bad_save ≠ .Completes ∧ Damaged board slot active (attempts + 1) after) ∨
      RolledBack board slot active after := by
  obtain ⟨slots, hbefore, -⟩ := h.before
  have due := unconfirmed_due hslot hbefore hfew
  have hroom := hbefore.room
  have hstore := hbefore.store
  dsimp only at due hroom hstore
  have hload : boot_state_store_load (boot_state_store_save_next device.copies
      (countAttempt (boot_state_store_load device.copies)) .Completes).1 =
        countAttempt (boot_state_store_load device.copies) :=
    load_completed (.count due) (by omega)
  have hcounted : Damaged board slot active (attempts + 1)
      { device with
        copies := (boot_state_store_save_next device.copies
          (countAttempt (boot_state_store_load device.copies)) .Completes).1 } :=
    damaged_counted hslot h hfew
      (storeGood_save hstore (recordStep_marked (.count due) (load_inRange _)) .Completes)
      (congrArg BootStateRecord.policy hload) rfl
  have hmark := mark_after_count due
  generalize (boot_state_store_save_next device.copies
    (countAttempt (boot_state_store_load device.copies)) .Completes).1 = counted at *
  rw [← hload] at hmark hcopies
  obtain ⟨slots', hbefore', -⟩ := hcounted.before
  have hroom' := hbefore'.room
  have hstore' := hbefore'.store
  dsimp only at hroom' hstore'
  by_cases hall : bad_save = .Completes
  · right
    apply damaged_marked hslot hne hcounted _ hslots hmode
    rw [hcopies, hall, load_completed hmark (by omega)]
  · rcases load_old_or_new hmark hstore' bad_save with hold | hnew
    · left
      refine ⟨hall, damaged_same hcounted ?_ ?_ hslots⟩
      · rw [hcopies]
        exact storeGood_save hstore' (recordStep_marked hmark (load_inRange _)) bad_save
      · rw [hcopies, hold]
    · right
      apply damaged_marked hslot hne hcounted _ hslots hmode
      rw [hcopies, hnew]

/-- A boot that nobody disturbs, before the attempts are used up: the image is
rejected after its attempt was counted, and the active image has its turn. -/
theorem damaged_trial (hslot : slot_is_valid slot) (hne : active ≠ slot)
    (h : Damaged board slot active attempts device) (hfew : attempts < 3) {ram : Ram}
    (hr : NoRequest board ram) {count_save bad_save : SaveOutcome} (hc : count_save.Reliable)
    (hb : bad_save.Reliable) :
    let event := Event.Boot ram false count_save bad_save
    DamagedStep board slot active (device.step board event) event
      (started (device.step board event) event) := by
  intro event
  obtain ⟨slots, hbefore, -⟩ := h.before
  have due := unconfirmed_due hslot hbefore hfew
  have hstore := hbefore.store
  have hpending := hbefore.pending_slot
  have hactive := hbefore.active_slot
  dsimp only at due hstore hpending hactive
  have path := @BootPath.fallback board device.slots _ due (by rw [hpending]; exact h.rejected)
  rw [hactive] at path
  by_cases hs : SavesReturn [countAttempt (boot_state_store_load device.copies),
      boot_policy_mark_pending_bad (countAttempt (boot_state_store_load device.copies))]
      count_save bad_save
  · obtain rfl := completes_of_returns hc (hs.first (by simp))
    obtain rfl := completes_of_returns hb (hs.second (by simp))
    obtain ⟨hmode, hslots, hcopies⟩ := boot_starts hr path hs (damaged_active h)
    rw [started_running hmode]
    rcases damaged_mark hslot hne h hfew hcopies hslots (by rw [hmode]; nofun) with
      ⟨hcut, -⟩ | hback
    · exact absurd rfl hcut
    · exact .rolled_back hback
  · obtain ⟨n, hmain, htwo⟩ := main_path_lost hr path hs
    have hdisturbed : ¬ Undisturbed board event := by
      rintro ⟨-, -, rfl, rfl⟩
      exact hs ⟨fun _ => rfl, fun _ => rfl⟩
    have hafter : (device.step board event).mode = .Off ∧
        (device.step board event).slots = device.slots ∧
        (device.step board event).copies =
          (BootMemory.saveAll { copies := device.copies, ram, saves := [] }
            ([countAttempt (boot_state_store_load device.copies),
              boot_policy_mark_pending_bad
                (countAttempt (boot_state_store_load device.copies))].take n)
            count_save bad_save).copies := by
      unfold event Device.step
      dsimp only
      rw [hmain]
      exact ⟨rfl, rfl, rfl⟩
    generalize device.step board event = after at hafter ⊢
    obtain ⟨hoff, hslots, hcopies⟩ := hafter
    have hmode : ∀ session, after.mode ≠ .Update session := by
      rw [hoff]
      nofun
    rw [started_nothing (by rw [hoff]; nofun) event]
    rcases n with _ | _ | n
    · have hsame : after.copies = device.copies := hcopies
      exact .waits attempts (damaged_same h (by rwa [hsame]) (by rw [hsame]) hslots) hdisturbed
    · have hone : after.copies = (boot_state_store_save_next device.copies
          (countAttempt (boot_state_store_load device.copies)) count_save).1 := hcopies
      have hgood :=
        storeGood_save hstore (recordStep_marked (.count due) (load_inRange _)) count_save
      rcases load_old_or_new (.count due) hstore count_save with hold | hnew
      · exact .waits attempts
          (damaged_same h (by rwa [hone]) (by rw [hone, hold]) hslots) hdisturbed
      · exact .waits (attempts + 1)
          (damaged_counted hslot h hfew (by rwa [hone]) (by rw [hone, hnew]) hslots) hdisturbed
    · obtain rfl := completes_of_returns hc (htwo (by omega))
      rw [List.take_of_length_le (by simp)] at hcopies
      rcases damaged_mark hslot hne h hfew hcopies hslots hmode with ⟨-, hnext⟩ | hback
      · exact .waits (attempts + 1) hnext hdisturbed
      · exact .lost hback hdisturbed

/-- A boot that nobody disturbs, after the last attempt. -/
theorem damaged_last (hslot : slot_is_valid slot) (hne : active ≠ slot)
    (h : Damaged board slot active 3 device) {ram : Ram} (hr : NoRequest board ram)
    {count_save bad_save : SaveOutcome} (hc : count_save.Reliable) :
    let event := Event.Boot ram false count_save bad_save
    DamagedStep board slot active (device.step board event) event
      (started (device.step board event) event) := by
  intro event
  obtain ⟨slots, hbefore, -⟩ := h.before
  have exhausted := unconfirmed_exhausted hslot hbefore
  have hroom := hbefore.room
  have hstore := hbefore.store
  have hactive := hbefore.active_slot
  dsimp only at exhausted hroom hstore hactive
  have path := @BootPath.exhausted board device.slots _ exhausted
  rw [hactive] at path
  obtain ⟨hslots, hgood, hrun | ⟨hoff, hcut, hload⟩⟩ :=
    @boot_saved board device ram count_save bad_save _ _ _ hstore hr path
      (.bad exhausted.1) (by omega) hc (damaged_active h)
  · rw [started_running hrun.1]
    exact .rolled_back (damaged_marked hslot hne h hrun.2 hslots (by rw [hrun.1]; nofun))
  · have hdisturbed : ¬ Undisturbed board event := fun hall => hcut hall.2.2.1
    rw [started_nothing (by rw [hoff]; nofun) event]
    rcases hload with hold | hnew
    · exact .waits 3 (damaged_same h hgood hold hslots) hdisturbed
    · exact .lost (damaged_marked hslot hne h hnew hslots (by rw [hoff]; nofun)) hdisturbed

theorem damaged_step (hslot : slot_is_valid slot) (hne : active ≠ slot)
    (h : Damaged board slot active attempts device) {event : Event} (hevent : Idle event)
    (hmark : MarkReliable event) :
    DamagedStep board slot active (device.step board event) event
      (started (device.step board event) event) := by
  obtain ⟨slots, hbefore, -⟩ := h.before
  have hstore := hbefore.store
  have hfewer := hbefore.few
  dsimp only at hstore
  cases event with
  | Boot ram traffic count_save bad_save =>
    by_cases hquiet : NoRequest board ram ∧ traffic = false
    · obtain ⟨hr, rfl⟩ := hquiet
      by_cases hfew : attempts < 3
      · exact damaged_trial hslot hne h hfew hr hevent hmark
      · obtain rfl : attempts = 3 := Nat.le_antisymm hfewer (Nat.not_lt.mp hfew)
        exact damaged_last hslot hne h hr hevent
    · rw [boot_updates hquiet]
      exact .waits attempts (damaged_same h hstore rfl rfl) fun hall => hquiet ⟨hall.1, hall.2.1⟩
  | Packet delivery =>
    obtain ⟨hcopies, hslots, -, -⟩ := @idle_packet board device delivery hevent
    exact .waits attempts (damaged_same h (by rwa [hcopies]) (by rw [hcopies]) hslots) id
  | Confirm save => exact hevent.elim

/-- A boot that nobody disturbs starts the active image of a device that is rolled back. -/
theorem rolledBack_boots (h : RolledBack board slot active device) {events : List Event}
    (hevents : ∀ event ∈ events, Idle event) (hboot : ∃ event ∈ events, Undisturbed board event) :
    starts board device events ≠ [] := by
  induction events generalizing device with
  | nil =>
    obtain ⟨event, hevent, -⟩ := hboot
    cases hevent
  | cons event rest ih =>
    have hnext := (rolledBack_step h (hevents event (List.mem_cons_self ..))).1
    obtain ⟨e, he, hundisturbed⟩ := hboot
    unfold starts
    rcases List.mem_cons.mp he with rfl | hmem
    · apply List.append_ne_nil_of_left_ne_nil
      cases e with
      | Boot ram traffic count_save bad_save =>
        obtain ⟨hr, rfl, -, -⟩ := hundisturbed
        rw [started_running (settled_boot h.settled hr count_save bad_save).1]
        exact List.cons_ne_nil _ _
      | Packet delivery => exact hundisturbed.elim
      | Confirm save => exact hundisturbed.elim
    · apply List.append_ne_nil_of_right_ne_nil
      exact ih hnext (fun e he => hevents e (List.mem_cons_of_mem _ he)) ⟨e, hmem, hundisturbed⟩

/-- The induction is on the events. Once the device is rolled back, it starts the
active image only. -/
theorem damaged_starts (hslot : slot_is_valid slot) (hne : active ≠ slot)
    (h : Damaged board slot active attempts device) {events : List Event}
    (hevents : ∀ event ∈ events, Idle event ∧ MarkReliable event) :
    (∀ candidate ∈ starts board device events, candidate = candidateFor board active false) ∧
      (starts board device events ≠ [] → RolledBack board slot active (device.run board events)) ∧
      ((∃ event ∈ events, Undisturbed board event) → starts board device events ≠ []) := by
  induction events generalizing device attempts with
  | nil =>
    refine ⟨nofun, fun hstarts => absurd rfl hstarts, ?_⟩
    rintro ⟨event, hevent, -⟩
    cases hevent
  | cons event rest ih =>
    have hrest : ∀ e ∈ rest, Idle e ∧ MarkReliable e :=
      fun e he => hevents e (List.mem_cons_of_mem _ he)
    obtain ⟨hidle, hmark⟩ := hevents event (List.mem_cons_self ..)
    have hstep := damaged_step hslot hne h hidle hmark
    rw [run_cons]
    unfold starts
    generalize started (device.step board event) event = images at hstep
    cases hstep with
    | waits attempts next disturbed =>
      obtain ⟨hall, hstarts, hboot⟩ := ih next hrest
      refine ⟨hall, hstarts, ?_⟩
      rintro ⟨e, he, hundisturbed⟩
      rcases List.mem_cons.mp he with rfl | hmem
      · exact absurd hundisturbed disturbed
      · exact hboot ⟨e, hmem, hundisturbed⟩
    | lost next disturbed =>
      have hidles : ∀ e ∈ rest, Idle e := fun e he => (hrest e he).1
      obtain ⟨hlast, n, hn⟩ := rolledBack_starts next hidles
      refine ⟨fun candidate hc => List.eq_of_mem_replicate (hn ▸ hc), fun _ => hlast, ?_⟩
      rintro ⟨e, he, hundisturbed⟩
      rcases List.mem_cons.mp he with rfl | hmem
      · exact absurd hundisturbed disturbed
      · exact rolledBack_boots next hidles ⟨e, hmem, hundisturbed⟩
    | rolled_back next =>
      obtain ⟨hlast, n, hn⟩ := rolledBack_starts next fun e he => (hrest e he).1
      refine ⟨?_, fun _ => hlast, fun _ => List.cons_ne_nil _ _⟩
      intro candidate hcandidate
      rcases List.mem_cons.mp hcandidate with rfl | hmem
      · rfl
      · exact List.eq_of_mem_replicate (hn ▸ hmem)

end

theorem damaged_image (slots : Slots) (slot : UInt32) (errors : Memory) :
    (damaged slots slot errors).image slot = flipped (slots.image slot) errors :=
  Slots.image_set_self ..

/-- An accepted image that is damaged is not accepted any more. -/
theorem damaged_not_accepted {board : Board} {slots : Slots} {slot : UInt32} {errors : Memory}
    (h : ImageAccepted board slots slot)
    (hd : ImageDamage (manifestOf (slots.image slot)).image_size.toNat errors) :
    ¬ ImageAccepted board (damaged slots slot errors) slot := by
  unfold ImageAccepted
  rw [damaged_image]
  exact damage_rejected h hd

/-- No boot starts an image that was damaged after it was accepted, whatever the
record says and whatever happens to the device but a download. -/
theorem damaged_never_starts (board : Board) {device : Device} {slot : UInt32} {errors : Memory}
    (h : ImageAccepted board device.slots slot)
    (hd : ImageDamage (manifestOf (device.slots.image slot)).image_size.toNat errors)
    {events : List Event} (hevents : ∀ event ∈ events, NoDownload event) :
    ∀ candidate ∈ starts board { device with slots := damaged device.slots slot errors } events,
      candidate.slot ≠ slot := by
  have hrejected := damaged_not_accepted h hd
  generalize hafter : { device with slots := damaged device.slots slot errors } = after
  have hslots : ¬ ImageAccepted board after.slots slot := by rwa [← hafter]
  clear hafter h hd hrejected
  induction events generalizing after with
  | nil => nofun
  | cons event rest ih =>
    have hkept := @noDownload_slots board after event (hevents event (List.mem_cons_self ..))
    intro candidate hcandidate
    rcases List.mem_append.mp hcandidate with hfirst | hlater
    · rintro rfl
      exact hslots (started_bootable hfirst).image
    · exact ih (fun e he => hevents e (List.mem_cons_of_mem _ he)) _ (by rwa [hkept]) _ hlater

/-- An update that is damaged before its trial is skipped: the boots of an idle run
start the active image only, and the first of them has marked the update bad. A
boot that nobody disturbs is such a boot. -/
theorem damaged_update_skipped (board : Board) {slot active : UInt32} {attempts : Nat}
    {device : Device} {errors : Memory} (hslot : slot_is_valid slot) (hne : active ≠ slot)
    (h : Unconfirmed board slot active attempts device)
    (hd : ImageDamage (manifestOf (device.slots.image slot)).image_size.toNat errors)
    {events : List Event} (hevents : ∀ event ∈ events, Idle event ∧ MarkReliable event) :
    let after := { device with slots := damaged device.slots slot errors }
    let images := starts board after events
    let state := boot_state_store_load (after.run board events).copies
    (∀ candidate ∈ images, candidate = candidateFor board active false) ∧
      (images ≠ [] → state.pending_slot = BOOT_STATE_NO_SLOT ∧
        status_for_slot state slot = BOOT_SLOT_STATUS_BAD ∧ state.active_slot = active) ∧
      ((∃ event ∈ events, Undisturbed board event) → images ≠ []) := by
  intro after images state
  have hactive : slot_is_valid active := by
    rw [← h.active_slot]
    exact (load_inRange _).active_slot
  have hdamaged : Damaged board slot active attempts after :=
    ⟨⟨device.slots, h, (Slots.image_set_ne _ _ hslot hactive hne).symm⟩,
      damaged_not_accepted h.bootable.image hd⟩
  obtain ⟨hall, hback, hboot⟩ := damaged_starts hslot hne hdamaged hevents
  refine ⟨hall, fun hstarts => ?_, hboot⟩
  have hrolled := hback hstarts
  exact ⟨hrolled.settled.none_pending, hrolled.bad, hrolled.settled.active_slot⟩

/-- One bit of the first reserved word of the manifest. -/
def brokenBit : Memory := fun i => if i = 0x220 then 1 else 0

theorem brokenBit_damage {size : Nat} (h : 0x240 ≤ size) : ImageDamage size brokenBit := by
  have hplace : ∀ i, brokenBit i ≠ 0 → i = 0x220 := by
    intro i hne
    by_contra hother
    exact hne (if_neg hother)
  refine ⟨⟨⟨0x1100, rfl⟩, ⟨0x1100, fun i hi => ?_⟩⟩, fun i hne => ?_, .inl fun i hne => ?_⟩
  · have hbyte := hplace _ (byte_of_bit hi)
    omega
  · have hbyte := hplace i hne
    omega
  · have hbyte := hplace i hne
    omega

/-- The F446 with the small image activated in slot B, and one bit of it broken. -/
theorem damaged_never_starts_small : ∃ image_crc32,
    let device := (firstDevice (image_for_mode .ConfirmedA) smallSlots).run .F446
      (activationSession image_crc32)
    ∀ candidate ∈ starts .F446
        { device with slots := damaged device.slots BOOT_SLOT_B brokenBit }
        (List.replicate 2 quietBoot), candidate.slot ≠ BOOT_SLOT_B := by
  obtain ⟨image_crc32, h⟩ := unconfirmed_activated
  refine ⟨image_crc32, damaged_never_starts .F446 h.bootable.image
    (brokenBit_damage (image_size_ge h.bootable.image)) ?_⟩
  intro event hevent
  rw [List.eq_of_mem_replicate hevent]
  trivial

/-- Two boots of it. -/
theorem damaged_update_skipped_small : ∃ image_crc32,
    let device := (firstDevice (image_for_mode .ConfirmedA) smallSlots).run .F446
      (activationSession image_crc32)
    let after := { device with slots := damaged device.slots BOOT_SLOT_B brokenBit }
    let images := starts .F446 after (List.replicate 2 quietBoot)
    let state := boot_state_store_load (after.run .F446 (List.replicate 2 quietBoot)).copies
    (∀ candidate ∈ images, candidate = candidateFor .F446 BOOT_SLOT_A false) ∧
      (images ≠ [] → state.pending_slot = BOOT_STATE_NO_SLOT ∧
        status_for_slot state BOOT_SLOT_B = BOOT_SLOT_STATUS_BAD ∧
        state.active_slot = BOOT_SLOT_A) ∧
      ((∃ event ∈ List.replicate 2 quietBoot, Undisturbed .F446 event) → images ≠ []) := by
  obtain ⟨image_crc32, h⟩ := unconfirmed_activated
  refine ⟨image_crc32, damaged_update_skipped .F446 (Or.inr rfl) (by decide) h
    (brokenBit_damage (image_size_ge h.bootable.image)) ?_⟩
  intro event hevent
  rw [List.eq_of_mem_replicate hevent]
  exact ⟨completes_reliable, completes_reliable⟩

end stm32_vibe.flash_damage
