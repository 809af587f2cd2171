-- The trial boots of a pending slot. An attempt is stored before its jump, and
-- no save but that of an activation lowers the stored count. So a slot is
-- handed over no more often than the count allows, until it is activated again.
import Stm32Vibe.Device
import Stm32Vibe.Handover
import Stm32Vibe.TransferLaws

namespace stm32_vibe.trial_boots

open little_endian boot_state boot_policy boot_state_store save_history boot_runtime boot_flash
  update_protocol update_session at_least_once finalize_image uart_update repeated_update
  transfer_laws boot_main handover device

/-! ## The count of the trial boots -/

/-- A record that an activation of the slot leaves: it is pending, with no attempt yet. -/
def FreshlyPending (slot : UInt32) (state : BootStateRecord) : Prop :=
  state.pending_slot = slot ∧ state.pending_attempts = 0

instance (slot : UInt32) (state : BootStateRecord) : Decidable (FreshlyPending slot state) :=
  inferInstanceAs (Decidable (_ ∧ _))

/-- The event is an ACTIVATE, and afterwards its record for the slot is in force. -/
def activates (slot : UInt32) (before after : Device) : Event → Bool
  | .Packet delivery =>
    delivery.packet.command = UPDATE_CMD_ACTIVATE ∧
      (boot_state_store_load after.copies).generation ≠
        (boot_state_store_load before.copies).generation ∧
      FreshlyPending slot (boot_state_store_load after.copies)
  | _ => false

/-- The event is a boot that jumps to the slot as a pending one. -/
def handsOver (slot : UInt32) (after : Device) : Event → Bool
  | .Boot _ _ _ _ =>
    match after.mode with
    | .Running candidate => candidate.boot_pending ∧ candidate.slot = slot
    | _ => false
  | _ => false

/-- The trial boots of the slot since it was activated last. -/
def countTrials (slot : UInt32) (before after : Device) (event : Event) (trials : Nat) : Nat :=
  if activates slot before after event then 0
  else if handsOver slot after event then trials + 1
  else trials

/-- One event, with the trial boots of the slot counted. -/
def watchStep (board : Board) (slot : UInt32) (at_ : Device × Nat) (event : Event) :
    Device × Nat :=
  (at_.1.step board event, countTrials slot at_.1 (at_.1.step board event) event at_.2)

def watch (board : Board) (slot : UInt32) (device : Device) (events : List Event) : Device × Nat :=
  events.foldl (watchStep board slot) (device, 0)

theorem watch_snoc (board : Board) (slot : UInt32) (device : Device) (events : List Event)
    (event : Event) :
    watch board slot device (events ++ [event]) =
      watchStep board slot (watch board slot device events) event := by
  unfold watch
  rw [List.foldl_append, List.foldl_cons, List.foldl_nil]

/-- The watch does not disturb the run. -/
theorem watch_device (board : Board) (slot : UInt32) (device : Device) (events : List Event) :
    (watch board slot device events).1 = device.run board events := by
  induction events using List.reverseRecOn with
  | nil => rfl
  | append_singleton events event ih => rw [watch_snoc, run_snoc, ← ih]; rfl

/-! ## The stored attempts -/

theorem attempts_of_due {state : BootStateRecord} (due : TrialDue state) :
    state.pending_attempts.toNat < 3 ∧
      (countAttempt state).pending_attempts.toNat = state.pending_attempts.toNat + 1 := by
  have hlt : state.pending_attempts.toNat < 3 := UInt32.lt_iff_toNat_lt.mp due.2.1
  refine ⟨hlt, ?_⟩
  rw [countAttempt_attempts, UInt32.toNat_add]
  exact Nat.mod_eq_of_lt (by show _ + 1 < 2 ^ 32; omega)

/-- A save that is no activation keeps the slot pending only with its attempts. -/
theorem recordStep_attempts {slot : UInt32} (hslot : slot_is_valid slot)
    {state next : BootStateRecord} (hi : InRange state) (step : RecordStep state next)
    (hfresh : ¬ FreshlyPending slot next) (hpending : next.pending_slot = slot) :
    state.pending_slot = slot ∧
      state.pending_attempts.toNat ≤ next.pending_attempts.toNat := by
  have hsome : slot ≠ BOOT_STATE_NO_SLOT := by
    rcases hslot with rfl | rfl <;> decide
  cases step with
  | count due =>
    rw [countAttempt_pending_slot] at hpending
    refine ⟨hpending, ?_⟩
    rw [(attempts_of_due due).2]
    omega
  | bad pending =>
    rw [mark_pending_bad_pending_slot] at hpending
    exact absurd hpending.symm hsome
  | confirm pending =>
    have hnone := (confirm_pending_spec (pending_slot_valid hi pending)).2.pending_slot
    exact absurd (hpending.symm.trans hnone) hsome
  | activate other version image_crc32 valid =>
    exact absurd ⟨hpending, mark_slot_pending_attempts state version image_crc32 valid⟩ hfresh

/-- Neither does a history without an activation of the slot. -/
theorem history_attempts {slot : UInt32} (hslot : slot_is_valid slot) {start copies : Copies}
    {saves : List (BootStateRecord × SaveOutcome)} (hg : StoreGood start)
    (h : SaveHistory start saves copies) (hfresh : ∀ save ∈ saves, ¬ FreshlyPending slot save.1)
    (hpending : (boot_state_store_load copies).pending_slot = slot) :
    (boot_state_store_load start).pending_slot = slot ∧
      (boot_state_store_load start).pending_attempts.toNat ≤
        (boot_state_store_load copies).pending_attempts.toNat := by
  induction h with
  | nil => exact ⟨hpending, Nat.le_refl _⟩
  | @save saves copies state outcome step history ih =>
    have hbefore := ih fun save hmem => hfresh save (List.mem_append_left _ hmem)
    rcases load_old_or_new step (history_good hg history) outcome with hload | hload
    · rw [hload] at hpending ⊢
      exact hbefore hpending
    · have hslot' := pending_slot_of_policy hload
      have hattempts := congrArg UInt32.toNat (pending_attempts_of_policy hload)
      have hnot : ¬ FreshlyPending slot state :=
        hfresh _ (List.mem_append_right _ (List.mem_singleton_self _))
      obtain ⟨hp, hle⟩ := recordStep_attempts hslot (load_inRange _) step hnot
        (hslot'.symm.trans hpending)
      obtain ⟨hp', hle'⟩ := hbefore hp
      exact ⟨hp', hle'.trans (hle.trans (Nat.le_of_eq hattempts.symm))⟩

/-! ## The saves of a boot -/

/-- The record names no pending slot, or has an attempt of it. -/
def Tried (state : BootStateRecord) : Prop :=
  state.pending_slot = BOOT_STATE_NO_SLOT ∨ state.pending_attempts ≠ 0

theorem Tried.not_fresh {slot : UInt32} (hslot : slot_is_valid slot) {state : BootStateRecord}
    (h : Tried state) : ¬ FreshlyPending slot state := by
  rintro ⟨hp, ha⟩
  rcases h with hn | hn
  · rw [hp] at hn
    rw [hn] at hslot
    exact absurd hslot (by decide)
  · exact hn ha

theorem bootPath_tried {board : Board} {slots : Slots} {state : BootStateRecord}
    {candidate : BootCandidate} {last : BootStateRecord} {saved : List BootStateRecord}
    (path : BootPath board slots state candidate last saved) : ∀ record ∈ saved, Tried record := by
  have hcount : TrialDue state → Tried (countAttempt state) := by
    intro due
    right
    intro hzero
    have hnat := congrArg UInt32.toNat hzero
    rw [(attempts_of_due due).2] at hnat
    cases hnat
  have hbad : ∀ state, Tried (boot_policy_mark_pending_bad state) :=
    fun state => Or.inl (mark_pending_bad_pending_slot state)
  intro record hmem
  cases path with
  | trial due accepted =>
    rw [List.mem_singleton.mp hmem]
    exact hcount due
  | exhausted exhausted =>
    rw [List.mem_singleton.mp hmem]
    exact hbad _
  | active not_exhausted not_due => cases hmem
  | fallback due rejected =>
    rcases List.mem_cons.mp hmem with rfl | hmem
    · exact hcount due
    · rw [List.mem_singleton.mp hmem]
      exact hbad _

theorem saveAll_mem {memory : BootMemory} {saved : List BootStateRecord}
    {count_save bad_save : SaveOutcome} {save : BootStateRecord × SaveOutcome}
    (h : save ∈ (memory.saveAll saved count_save bad_save).saves) :
    save ∈ memory.saves ∨ save.1 ∈ saved := by
  have hfold : ∀ (rest : List BootStateRecord) (memory : BootMemory),
      save ∈ (rest.foldl (fun memory state => memory.save state bad_save) memory).saves →
        save ∈ memory.saves ∨ save.1 ∈ rest := by
    intro rest
    induction rest with
    | nil => exact fun memory h => Or.inl h
    | cons state rest ih =>
      intro memory h
      rcases ih _ h with h | h
      · rcases List.mem_append.mp h with h | h
        · exact Or.inl h
        · rw [List.mem_singleton.mp h]
          exact Or.inr (List.mem_cons_self ..)
      · exact Or.inr (List.mem_cons_of_mem _ h)
  cases saved with
  | nil => exact Or.inl h
  | cons first rest =>
    rcases hfold rest _ h with h | h
    · rcases List.mem_append.mp h with h | h
      · exact Or.inl h
      · rw [List.mem_singleton.mp h]
        exact Or.inr (List.mem_cons_self ..)
    · exact Or.inr (List.mem_cons_of_mem _ h)

/-- What a boot saves is tried or bad, never fresh. -/
theorem main_saves_tried {board : Board} {traffic : Bool} {count_save bad_save : SaveOutcome}
    {slots : Slots} {copies : Copies} {ram : Ram} :
    ∀ save ∈ (main board traffic count_save bad_save slots copies ram).2.saves, Tried save.1 := by
  by_cases hr : ram (BOOT_UPDATE_REQUEST_ADDR board).toNat = UPDATE_HANDOFF_MAGIC
  · simp [main, update_handoff_take, hr]
  cases traffic with
  | true => simp [main, update_handoff_take, hr]
  | false =>
    obtain ⟨candidate, last, saved, path⟩ :=
      bootPath_exists board slots (boot_state_store_load copies)
    have htried := bootPath_tried path
    have hall : ∀ n, ∀ save ∈ (BootMemory.saveAll { copies, ram, saves := [] } (saved.take n)
        count_save bad_save).saves, Tried save.1 := by
      intro n save hmem
      rcases saveAll_mem hmem with h | h
      · cases h
      · exact htried _ (List.mem_of_mem_take h)
    by_cases hs : SavesReturn saved count_save bad_save
    · have hsaved := hall saved.length
      rw [List.take_length] at hsaved
      rw [main_path hr path hs, (bootPath_candidate (load_inRange copies) path).2]
      rcases @finish_saves board slots candidate.slot candidate.boot_pending bad_save last
        (BootMemory.saveAll { copies, ram, saves := [] } saved count_save bad_save) with
        ⟨-, hsaves⟩ | ⟨-, hmemory⟩
      · rw [hsaves]
        exact hsaved
      · rw [hmemory]
        intro save hmem
        rcases List.mem_append.mp hmem with h | h
        · exact hsaved save h
        · rw [List.mem_singleton.mp h]
          exact Or.inl (mark_pending_bad_pending_slot last)
    · obtain ⟨n, hn, -⟩ := main_path_lost hr path hs
      rw [hn]
      exact hall n

/-! ## One event -/

/-- The trial boots since the last activation, against the stored record. -/
structure TrialsGood (slot : UInt32) (device : Device) (trials : Nat) : Prop where
  le_max : trials ≤ BOOT_STATE_MAX_PENDING_ATTEMPTS.toNat
  stored : (boot_state_store_load device.copies).pending_slot = slot →
    trials ≤ (boot_state_store_load device.copies).pending_attempts.toNat

section
variable {board : Board} {device : Device} {slot : UInt32} {trials : Nat}

/-- An event that saves no activation of the slot, and does not hand over. -/
theorem trialsGood_history (hslot : slot_is_valid slot) (hg : StoreGood device.copies)
    (h : TrialsGood slot device trials) {after : Device}
    {saves : List (BootStateRecord × SaveOutcome)}
    (history : SaveHistory device.copies saves after.copies)
    (hfresh : ∀ save ∈ saves, ¬ FreshlyPending slot save.1) : TrialsGood slot after trials := by
  refine ⟨h.le_max, ?_⟩
  intro hpending
  obtain ⟨hp, hle⟩ := history_attempts hslot hg history hfresh hpending
  exact (h.stored hp).trans hle

/-- A boot that hands over had a trial boot of the slot due, and has saved its attempt. -/
theorem boot_of_handsOver {ram : Ram} {traffic : Bool} {count_save bad_save : SaveOutcome}
    (hc : count_save.Reliable)
    (hover : handsOver slot (device.step board (.Boot ram traffic count_save bad_save))
      (.Boot ram traffic count_save bad_save) = true) :
    (boot_state_store_load device.copies).pending_slot = slot ∧
      TrialDue (boot_state_store_load device.copies) ∧
      (device.step board (.Boot ram traffic count_save bad_save)).copies =
        (boot_state_store_save_next device.copies
          (countAttempt (boot_state_store_load device.copies)) .Completes).1 := by
  have hmode : (device.step board (.Boot ram traffic count_save bad_save)).mode =
      modeOf (main board traffic count_save bad_save device.slots device.copies ram).1 := rfl
  have hcopies : (device.step board (.Boot ram traffic count_save bad_save)).copies =
      (main board traffic count_save bad_save device.slots device.copies ram).2.copies := rfl
  rw [hcopies]
  unfold handsOver at hover
  rw [hmode] at hover
  cases hend : (main board traffic count_save bad_save device.slots device.copies ram).1 with
  | UpdateMode => rw [hend] at hover; cases hover
  | PowerLost => rw [hend] at hover; cases hover
  | Jump candidate vector_base stack_pointer reset_handler got_base =>
    rw [hend] at hover
    obtain ⟨hpending, hslot⟩ : candidate.boot_pending = true ∧ candidate.slot = slot := by
      simpa [modeOf] using hover
    obtain ⟨last, saved, hj⟩ := jumps_of_main hend
    rw [main_of_jumps hj]
    cases hj.path with
    | trial due accepted =>
      refine ⟨hslot, due, ?_⟩
      rw [← completes_of_returns hc (hj.returns.first (by simp))]
      rfl
    | exhausted => cases hpending
    | active => cases hpending
    | fallback => cases hpending

/-- A boot that hands over has counted the attempt before. -/
theorem trialsGood_handsOver (h : TrialsGood slot device trials) {ram : Ram} {traffic : Bool}
    {count_save bad_save : SaveOutcome} (hc : count_save.Reliable)
    (hroom : generationOf (boot_state_store_load device.copies) + 1 < 2 ^ 32)
    (hover : handsOver slot (device.step board (.Boot ram traffic count_save bad_save))
      (.Boot ram traffic count_save bad_save) = true) :
    TrialsGood slot (device.step board (.Boot ram traffic count_save bad_save)) (trials + 1) := by
  obtain ⟨hpending, due, hcopies⟩ := boot_of_handsOver hc hover
  obtain ⟨hlt, hnext⟩ := attempts_of_due due
  have hstored := h.stored hpending
  have hload := load_completed (.count due) hroom
  rw [← hcopies] at hload
  have hmax : BOOT_STATE_MAX_PENDING_ATTEMPTS.toNat = 3 := rfl
  refine ⟨by omega, ?_⟩
  intro _
  rw [hload, hnext]
  omega

/-- A packet changes the count only when it activates the slot. -/
theorem trialsGood_packet (hg : StoreGood device.copies) (hsession : SessionGood device)
    (h : TrialsGood slot device trials) (delivery : Delivery)
    (hnot : activates slot device (device.step board (.Packet delivery)) (.Packet delivery) =
      false) :
    TrialsGood slot (device.step board (.Packet delivery)) trials := by
  refine ⟨h.le_max, ?_⟩
  intro hpending
  rcases @packet_copies board device hsession delivery with
    hcopies | ⟨hcommand, other, version, image_crc32, hvalid, hcopies⟩
  · rw [hcopies] at hpending ⊢
    exact h.stored hpending
  have step : RecordStep (boot_state_store_load device.copies) _ :=
    .activate other version image_crc32 hvalid
  have hload := load_old_or_new step hg delivery.save
  rw [← hcopies] at hload
  rcases hload with hload | hload
  · -- the activation was cut before it came into force
    rw [hload] at hpending ⊢
    exact h.stored hpending
  · -- the activation is in force: of another slot, or seen by `activates`
    have hgen := (congrArg Policy.generation hload).trans
      (mark_slot_pending_generation _ version image_crc32 hvalid)
    have hslot := (pending_slot_of_policy hload).trans
      (mark_slot_pending_pending_slot _ version image_crc32 hvalid)
    have hattempts := (pending_attempts_of_policy hload).trans
      (mark_slot_pending_attempts _ version image_crc32 hvalid)
    have hseen : activates slot device (device.step board (.Packet delivery)) (.Packet delivery) =
        true := by
      unfold activates
      rw [decide_eq_true_eq]
      refine ⟨hcommand, ?_, hpending, hattempts⟩
      intro hsame
      exact next_generation_ne _ (hgen.symm.trans hsame)
    rw [hseen] at hnot
    cases hnot

/-- What one event does to the trial boots. -/
theorem trialsGood_step (hslot : slot_is_valid slot) (hg : StoreGood device.copies)
    (hsession : SessionGood device) (h : TrialsGood slot device trials) {event : Event}
    (hr : event.Reliable)
    (hroom : generationOf (boot_state_store_load device.copies) + 1 < 2 ^ 32) :
    TrialsGood slot (device.step board event)
      (countTrials slot device (device.step board event) event trials) := by
  unfold countTrials
  by_cases hactivates : activates slot device (device.step board event) event = true
  · rw [if_pos hactivates]
    exact ⟨Nat.zero_le _, fun _ => Nat.zero_le _⟩
  rw [if_neg hactivates]
  rw [Bool.not_eq_true] at hactivates
  cases event with
  | Boot ram traffic count_save bad_save =>
    by_cases hover : handsOver slot (device.step board (.Boot ram traffic count_save bad_save))
        (.Boot ram traffic count_save bad_save) = true
    · rw [if_pos hover]
      exact trialsGood_handsOver h hr.1 hroom hover
    · rw [if_neg hover]
      exact trialsGood_history hslot hg h (main_history hr.1 hroom) fun save hmem =>
        (main_saves_tried save hmem).not_fresh hslot
  | Packet delivery => exact trialsGood_packet hg hsession h delivery hactivates
  | Confirm save =>
    cases hmode : device.mode with
    | Running candidate =>
      refine trialsGood_history hslot hg h (confirm_stepHistory hmode save).history ?_
      intro saved hmem
      rcases confirm_cases device.copies save with hc | ⟨hp, hc⟩
      · rw [hc] at hmem
        cases hmem
      · rw [hc] at hmem
        rw [List.mem_singleton.mp hmem]
        have hv := pending_slot_valid (load_inRange device.copies) hp
        exact Tried.not_fresh hslot (Or.inl (confirm_pending_spec hv).2.pending_slot)
    | Off =>
      rw [show device.step board (.Confirm save) = device by unfold Device.step; rw [hmode]]
      exact h
    | Update session =>
      rw [show device.step board (.Confirm save) = device by unfold Device.step; rw [hmode]]
      exact h

end

/-! ## The bound -/

/-- In a run with fewer than `2 ^ 32 - 1` saves, a slot is handed over as a
pending one at most `BOOT_STATE_MAX_PENDING_ATTEMPTS` times between two
activations. As long as it stays pending, every one of these boots is counted in
the stored record. -/
theorem trial_boots_bounded (board : Board) {copies : Copies} (hp : Provisioned copies)
    (slots : Slots) {slot : UInt32} (hslot : slot_is_valid slot) {events : List Event}
    (hr : ∀ event ∈ events, event.Reliable)
    (hfew : ((firstDevice copies slots).run board events).saves.length < 2 ^ 32 - 1) :
    let device := (firstDevice copies slots).run board events
    let trials := (watch board slot (firstDevice copies slots) events).2
    trials ≤ BOOT_STATE_MAX_PENDING_ATTEMPTS.toNat ∧
      ((boot_state_store_load device.copies).pending_slot = slot →
        trials ≤ (boot_state_store_load device.copies).pending_attempts.toNat) := by
  intro device trials
  have hgood : TrialsGood slot device trials := by
    induction events using List.reverseRecOn with
    | nil => exact ⟨Nat.zero_le _, fun _ => Nat.zero_le _⟩
    | append_singleton events event ih =>
      have hgrow := (@saves_kept board ((firstDevice copies slots).run board events)
        event).length_le
      rw [← run_snoc] at hgrow
      have hreliable : ∀ e ∈ events, e.Reliable := fun e he => hr e (List.mem_append_left _ he)
      have hbefore : RunHistory copies ((firstDevice copies slots).run board events) :=
        runHistory hp hreliable (by omega)
      have hstep := @trialsGood_step board _ slot _ hslot
        (history_good (storeGood_provisioned hp) hbefore.history) hbefore.session
        (ih hreliable (by omega)) event
        (hr event (List.mem_append_right _ (List.mem_singleton_self _)))
        (hbefore.room hp (by omega))
      have hdevice : device = ((firstDevice copies slots).run board events).step board event :=
        run_snoc _ _ _ _
      have htrials : trials = countTrials slot ((firstDevice copies slots).run board events)
          (((firstDevice copies slots).run board events).step board event) event
          (watch board slot (firstDevice copies slots) events).2 := by
        show (watch board slot (firstDevice copies slots) (events ++ [event])).2 = _
        rw [watch_snoc]
        unfold watchStep
        rw [watch_device]
      rw [hdevice, htrials]
      exact hstep
  exact ⟨hgood.le_max, hgood.stored⟩

/-! ## A trial boot -/

/-- A boot without a request and without traffic, whose saves complete. -/
def quietBoot : Event := .Boot (fun _ => 0) false .Completes .Completes

theorem quietBoot_reliable : quietBoot.Reliable := ⟨nofun, nofun⟩

theorem modeOf_jumpTo (board : Board) (slots : Slots) (candidate : BootCandidate) (ram : Ram) :
    modeOf (jumpTo board slots candidate ram) = .Running candidate := by
  unfold jumpTo
  dsimp only
  split <;> rfl

section
variable {board : Board} {device : Device} {slot : UInt32}

/-- A due trial boot of a bootable slot hands over, after the save of its attempt. -/
theorem trial_boot (hp : (boot_state_store_load device.copies).pending_slot = slot)
    (due : TrialDue (boot_state_store_load device.copies)) (hb : Bootable board device.slots slot) :
    let after := device.step board quietBoot
    after.mode = .Running (candidateFor board slot true) ∧ after.slots = device.slots ∧
      after.copies = (boot_state_store_save_next device.copies
        (countAttempt (boot_state_store_load device.copies)) .Completes).1 ∧
      after.saves = device.saves ++
        [(countAttempt (boot_state_store_load device.copies), .Completes)] := by
  rw [← hp] at hb ⊢
  have hj : Jumps board false .Completes .Completes device.slots device.copies (fun _ => 0)
      (candidateFor board (boot_state_store_load device.copies).pending_slot true) _ _ :=
    ⟨zero_ne_magic, rfl, .trial due hb.image, ⟨fun _ => rfl, fun _ => rfl⟩, hb⟩
  unfold quietBoot Device.step
  dsimp only
  rw [main_of_jumps hj]
  exact ⟨modeOf_jumpTo .., rfl, rfl, rfl⟩

/-- It hands the slot over, and it activates nothing. -/
theorem trial_boot_counts (hp : (boot_state_store_load device.copies).pending_slot = slot)
    (due : TrialDue (boot_state_store_load device.copies)) (hb : Bootable board device.slots slot)
    (trials : Nat) : (watchStep board slot (device, trials) quietBoot).2 = trials + 1 := by
  have hover : handsOver slot (device.step board quietBoot) quietBoot = true := by
    unfold handsOver
    have hmode := (trial_boot hp due hb).1
    unfold quietBoot at hmode ⊢
    dsimp only
    rw [hmode]
    simp [candidateFor]
  have hquiet : activates slot device (device.step board quietBoot) quietBoot = false := rfl
  unfold watchStep countTrials
  dsimp only
  rw [hquiet, hover]
  rfl

end

/-- The slot is pending and bootable, and a trial boot of it is due. -/
structure AwaitsTrial (board : Board) (slot : UInt32) (generation : Nat) (device : Device) :
    Prop where
  store : StoreGood device.copies
  generation_eq : generationOf (boot_state_store_load device.copies) = generation
  pending : (boot_state_store_load device.copies).pending_slot = slot
  due : TrialDue (boot_state_store_load device.copies)
  bootable : Bootable board device.slots slot

/-! ## The last generation -/

section
variable {board : Board} {device : Device} {slot : UInt32}

/-- The counted record does not come into force, so a boot changes nothing. -/
theorem lastGeneration_boot (h : AwaitsTrial board slot (2 ^ 32 - 1) device) :
    AwaitsTrial board slot (2 ^ 32 - 1) (device.step board quietBoot) ∧
      boot_state_store_load (device.step board quietBoot).copies =
        boot_state_store_load device.copies := by
  obtain ⟨-, hslots, hcopies, -⟩ := trial_boot h.pending h.due h.bootable
  have hzero : generationOf (countAttempt (boot_state_store_load device.copies)) = 0 := by
    have hgen := h.generation_eq
    unfold generationOf at hgen ⊢
    rw [countAttempt_generation, UInt32.toNat_add, hgen]
    rfl
  have hload : boot_state_store_load (device.step board quietBoot).copies =
      boot_state_store_load device.copies := by
    rw [hcopies]
    exact load_save_wrapped h.store.aligned h.generation_eq hzero .Completes
  refine ⟨?_, hload⟩
  constructor
  case store =>
    rw [hcopies]
    exact storeGood_save h.store (recordStep_marked (.count h.due) (load_inRange _)) .Completes
  case generation_eq => rw [hload]; exact h.generation_eq
  case pending => rw [hload]; exact h.pending
  case due => rw [hload]; exact h.due
  case bootable => rw [hslots]; exact h.bootable

/-- Every one of a row of boots hands over, and none is counted in the record. -/
theorem lastGeneration_boots (h : AwaitsTrial board slot (2 ^ 32 - 1) device) (n trials : Nat) :
    ((List.replicate n quietBoot).foldl (watchStep board slot) (device, trials)).2 = trials + n ∧
      boot_state_store_load (device.run board (List.replicate n quietBoot)).copies =
        boot_state_store_load device.copies := by
  induction n generalizing device trials with
  | zero => exact ⟨rfl, rfl⟩
  | succ n ih =>
    obtain ⟨hnext, hload⟩ := lastGeneration_boot h
    have hcount := trial_boot_counts h.pending h.due h.bootable trials
    obtain ⟨hrest, hrestload⟩ := ih hnext (trials + 1)
    rw [List.replicate_succ, run_cons, hrestload, hload]
    refine ⟨?_, rfl⟩
    rw [List.foldl_cons]
    have hstep : watchStep board slot (device, trials) quietBoot =
        (device.step board quietBoot, trials + 1) := Prod.ext rfl hcount
    rw [hstep, hrest]
    omega

end

/-! ## The small image, activated again and again -/

theorem processAll_good {board : Board} (deliveries : List Delivery) {state : UpdateState}
    (hg : StoreGood state.copies) (htarget : slot_is_valid state.session.target_slot) :
    StoreGood (processAll board deliveries state).2.copies := by
  induction deliveries generalizing state with
  | nil => exact hg
  | cons delivery rest ih =>
    have step := processOne_step board delivery state
    have hnext : StoreGood (processOne board delivery state).2.copies := by
      rcases saves_of_step step with ⟨hc, -⟩ | ⟨-, hc, -⟩
      · rw [hc]
        exact hg
      · rw [hc]
        have hmark : RecordStep (boot_state_store_load state.copies) (activated state) :=
          .activate _ _ _ htarget
        exact storeGood_save hg (recordStep_marked hmark (load_inRange _)) delivery.save
    exact @ih (processOne board delivery state).2 hnext (target_valid_step htarget step)

/-- What the activations leave stored: the slot pending, untried, with the image in it. -/
theorem activated_due {first : BootUpdateSession} {copies : Copies} {binary : List UInt8}
    {image_crc32 session_id version : UInt32} {n : Nat} {state : UpdateState}
    (h : Activated first copies binary image_crc32 session_id version n state) :
    (boot_state_store_load state.copies).pending_slot = targetSlot copies ∧
      TrialDue (boot_state_store_load state.copies) := by
  have hvalid := targetSlot_valid copies
  have hrecord := h.record
  generalize boot_state_store_load state.copies = record at hrecord ⊢
  have hpending := congrArg BootStateRecord.pending_slot hrecord
  rw [unstamped_pending_slot, unstamped_pending_slot,
    mark_slot_pending_pending_slot _ _ _ hvalid] at hpending
  have hattempts := congrArg BootStateRecord.pending_attempts hrecord
  rw [unstamped_pending_attempts, unstamped_pending_attempts,
    mark_slot_pending_attempts _ _ _ hvalid] at hattempts
  have hstatus := congrArg (status_for_slot · (targetSlot copies)) hrecord
  simp only [status_unstamped] at hstatus
  rw [mark_slot_pending_status _ _ _ hvalid] at hstatus
  refine ⟨hpending, ?_, ?_, ?_⟩
  · rw [hpending]
    rcases hvalid with hv | hv <;> rw [hv] <;> decide
  · rw [hattempts]
    decide
  · rw [hpending]
    exact hstatus

theorem targetSlot_fresh : targetSlot freshState.copies = BOOT_SLOT_A := by
  have hcopies : freshState.copies = erasedCopies := rfl
  have hpending : boot_state_init_default.pending_slot = BOOT_STATE_NO_SLOT := by
    simp [boot_state_init_default]
  have hactive : boot_state_init_default.active_slot = BOOT_SLOT_A := by
    simp [boot_state_init_default]
  have hstatus : status_for_slot boot_state_init_default BOOT_SLOT_A = BOOT_SLOT_STATUS_EMPTY := by
    simp [boot_state_init_default, status_for_slot, boot_state_status_for_slot]
  unfold targetSlot boot_policy_inactive_slot
  rw [hcopies, load_erased, hpending, hactive, hstatus]
  decide

/-- A pending slot counts as the one in use: the next update goes to the other. -/
theorem targetSlot_pending {copies : Copies} {slot : UInt32} (hslot : slot_is_valid slot)
    (h : (boot_state_store_load copies).pending_slot = slot) :
    targetSlot copies = otherSlot slot := by
  unfold targetSlot boot_policy_inactive_slot
  rw [h]
  exact if_pos hslot

/-- One session of an F446: the small image is downloaded and activated. The reset
that the ACTIVATE asks for is the next event of a run. -/
def activationSession (image_crc32 : UInt32) : List Event :=
  .Boot (fun _ => 0) true .Completes .Completes ::
    (smallDownload image_crc32 ++ [plain .F446 (bare UPDATE_CMD_ACTIVATE 7)]).map .Packet

/-- Such sessions, one after the other. -/
def repeatedActivation (image_crc32 : UInt32) (n : Nat) : List Event :=
  (List.replicate n (activationSession image_crc32)).flatten

/-- The slot of the last one of them, on a fresh device. -/
def activatedSlot (n : Nat) : UInt32 := if n % 2 = 0 then BOOT_SLOT_B else BOOT_SLOT_A

theorem activatedSlot_valid (n : Nat) : slot_is_valid (activatedSlot n) := by
  unfold activatedSlot
  split
  · exact Or.inr rfl
  · exact Or.inl rfl

theorem activatedSlot_succ (n : Nat) : activatedSlot (n + 1) = otherSlot (activatedSlot n) := by
  rcases Nat.mod_two_eq_zero_or_one n with h | h
  · simp [activatedSlot, otherSlot, Nat.add_mod, h]
  · simp [activatedSlot, otherSlot, Nat.add_mod, h]

theorem repeatedActivation_succ (image_crc32 : UInt32) (n : Nat) :
    repeatedActivation image_crc32 (n + 1) =
      repeatedActivation image_crc32 n ++ activationSession image_crc32 := by
  unfold repeatedActivation
  rw [List.replicate_succ', List.flatten_append, List.flatten_singleton]

/-- After its activations the session leaves a device that waits for its first trial boot. -/
theorem awaitsTrial_activated {board : Board} {first : BootUpdateSession} {copies : Copies}
    {image_crc32 session_id version : UInt32} {n : Nat} {state : UpdateState}
    (hg : StoreGood state.copies)
    (h : Activated first copies (smallBinary 0 2) image_crc32 session_id version n state) :
    AwaitsTrial board (targetSlot copies) (generationOf (boot_state_store_load copies) + n)
      (ofUpdate state) := by
  obtain ⟨hpending, hdue⟩ := activated_due h
  exact ⟨hg, h.generation, hpending, hdue, small_bootable h.holds⟩

theorem activation_completes (image_crc32 : UInt32) :
    ∀ d ∈ smallDownload image_crc32 ++ [plain .F446 (bare UPDATE_CMD_ACTIVATE 7)],
      d.save = .Completes := by
  intro d hd
  rcases List.mem_append.mp hd with hd | hd
  · obtain ⟨packet, -, rfl⟩ := List.mem_map.mp hd
    rfl
  · rw [List.mem_singleton.mp hd]
    rfl

theorem activationSession_reliable (image_crc32 : UInt32) :
    ∀ event ∈ activationSession image_crc32, event.Reliable := by
  intro event hmem
  rcases List.mem_cons.mp hmem with rfl | hmem
  · exact ⟨nofun, nofun⟩
  · obtain ⟨d, hd, rfl⟩ := List.mem_map.mp hmem
    intro steps
    rw [activation_completes image_crc32 d hd]
    nofun

theorem repeatedActivation_reliable (image_crc32 : UInt32) (n : Nat) :
    ∀ event ∈ repeatedActivation image_crc32 n, event.Reliable := by
  intro event hmem
  obtain ⟨session, hsession, hevent⟩ := List.mem_flatten.mp hmem
  rw [List.eq_of_mem_replicate hsession] at hevent
  exact activationSession_reliable image_crc32 event hevent

/-- From any device whose generation has room, such a session succeeds. -/
theorem session_activates : ∃ image_crc32 version, ∀ device : Device,
    generationOf (boot_state_store_load device.copies) + 1 < 2 ^ 32 →
      device.run .F446 (activationSession image_crc32) =
          ofUpdate (processAll .F446 (smallDownload image_crc32 ++
            [plain .F446 (bare UPDATE_CMD_ACTIVATE 7)])
              (device.updateState boot_update_session_init)).2 ∧
        Activated boot_update_session_init device.copies (smallBinary 0 2) image_crc32 7 version 1
          (processAll .F446 (smallDownload image_crc32 ++
            [plain .F446 (bare UPDATE_CMD_ACTIVATE 7)])
              (device.updateState boot_update_session_init)).2 := by
  obtain ⟨metadata, hdownload⟩ := small_download_run
  refine ⟨metadata.image_crc32, metadata.software_version.toNat.toUInt32, ?_⟩
  intro device hroom
  refine ⟨session_run (activation_completes metadata.image_crc32) _ _ _ _, ?_⟩
  have hcarries := plain_carries .F446 (bare UPDATE_CMD_ACTIVATE 7)
  have hrun : RunsTo (processOne .F446) .Ok
      (smallDownload metadata.image_crc32 ++ [plain .F446 (bare UPDATE_CMD_ACTIVATE 7)])
      (device.updateState boot_update_session_init)
      (Activated boot_update_session_init device.copies (smallBinary 0 2) metadata.image_crc32 7
        metadata.software_version.toNat.toUInt32 1) := by
    refine .append (hdownload _) fun state hs => ?_
    obtain ⟨hok, hactivated⟩ := activate_first hcarries hs hroom
    exact .cons hok ⟨nofun, hactivated⟩
  exact hrun.2

/-- A state of the update loop that a device starts with. -/
def firstState (copies : Copies) (slots : Slots) : UpdateState :=
  (firstDevice copies slots).updateState boot_update_session_init

/-- From one of the first boot states, the download and the activation of the
small image succeed. -/
theorem activation_run {copies : Copies} (hp : Provisioned copies) (slots : Slots) :
    ∃ image_crc32 version,
      (firstDevice copies slots).run .F446 (activationSession image_crc32) =
          ofUpdate (processAll .F446 (smallDownload image_crc32 ++
            [plain .F446 (bare UPDATE_CMD_ACTIVATE 7)]) (firstState copies slots)).2 ∧
        Activated boot_update_session_init copies (smallBinary 0 2) image_crc32 7 version 1
          (processAll .F446 (smallDownload image_crc32 ++
            [plain .F446 (bare UPDATE_CMD_ACTIVATE 7)]) (firstState copies slots)).2 := by
  obtain ⟨image_crc32, version, hrun⟩ := session_activates
  refine ⟨image_crc32, version, hrun (firstDevice copies slots) ?_⟩
  have hcopies : (firstDevice copies slots).copies = copies := rfl
  rw [hcopies, provisioned_generation hp]
  decide

/-- The first target of the session of a fresh device does not matter: it is a slot. -/
theorem activation_good {copies : Copies} (hp : Provisioned copies) (slots : Slots)
    (deliveries : List Delivery) :
    StoreGood (processAll .F446 deliveries (firstState copies slots)).2.copies :=
  processAll_good deliveries (storeGood_provisioned hp) (Or.inr rfl)

/-- A session leaves its slot pending, one generation on. -/
theorem session_awaits : ∃ image_crc32, ∀ device : Device, StoreGood device.copies →
    generationOf (boot_state_store_load device.copies) + 1 < 2 ^ 32 →
      AwaitsTrial .F446 (targetSlot device.copies)
        (generationOf (boot_state_store_load device.copies) + 1)
        (device.run .F446 (activationSession image_crc32)) := by
  obtain ⟨image_crc32, version, hrun⟩ := session_activates
  refine ⟨image_crc32, ?_⟩
  intro device hg hroom
  obtain ⟨hdevice, hactivated⟩ := hrun device hroom
  rw [hdevice]
  exact awaitsTrial_activated (processAll_good _ hg (Or.inr rfl)) hactivated

/-- On a fresh device the sessions fill the slots in turn, and each uses one generation. -/
theorem repeatedActivation_run : ∃ image_crc32, ∀ count, 0 < count → count < 2 ^ 32 →
    AwaitsTrial .F446 (activatedSlot count) count
      ((firstDevice erasedCopies erasedSlots).run .F446 (repeatedActivation image_crc32 count)) := by
  obtain ⟨image_crc32, hsession⟩ := session_awaits
  refine ⟨image_crc32, ?_⟩
  intro count h0
  induction count with
  | zero => exact absurd h0 (Nat.lt_irrefl 0)
  | succ n ih =>
    intro hcount
    rw [repeatedActivation_succ, run_append]
    by_cases hn : n = 0
    · subst hn
      have hfirst := hsession (firstDevice erasedCopies erasedSlots) (storeGood_provisioned .erased)
      have hcopies : (firstDevice erasedCopies erasedSlots).copies = erasedCopies := rfl
      have htarget : targetSlot erasedCopies = BOOT_SLOT_A := targetSlot_fresh
      rw [hcopies, provisioned_generation .erased, htarget] at hfirst
      exact hfirst (by decide)
    · have hbefore := ih (Nat.pos_of_ne_zero hn) (by omega)
      have hnext := hsession _ hbefore.store (by rw [hbefore.generation_eq]; exact hcount)
      rw [targetSlot_pending (activatedSlot_valid n) hbefore.pending, ← activatedSlot_succ,
        hbefore.generation_eq] at hnext
      exact hnext

/-- The first session of a fresh device leaves slot A pending. -/
theorem activationSession_run : ∃ image_crc32, AwaitsTrial .F446 BOOT_SLOT_A 1
    ((firstDevice erasedCopies erasedSlots).run .F446 (activationSession image_crc32)) := by
  obtain ⟨image_crc32, hrun⟩ := repeatedActivation_run
  have hone := hrun 1 (by decide) (by decide)
  rw [repeatedActivation_succ] at hone
  exact ⟨image_crc32, hone⟩

theorem watch_append (board : Board) (slot : UInt32) (device : Device) (events more : List Event) :
    watch board slot device (events ++ more) =
      more.foldl (watchStep board slot) (watch board slot device events) := by
  unfold watch
  rw [List.foldl_append]

/-- A run that ends at the last generation goes on with boots that hand over uncounted. -/
theorem boots_at_last {board : Board} {slot : UInt32} {first : Device} {before : List Event}
    (h : AwaitsTrial board slot (2 ^ 32 - 1) (first.run board before)) (n : Nat) :
    boot_state_store_load (first.run board (before ++ List.replicate n quietBoot)).copies =
        boot_state_store_load (first.run board before).copies ∧
      n ≤ (watch board slot first (before ++ List.replicate n quietBoot)).2 := by
  have hwatch : watch board slot first before =
      (first.run board before, (watch board slot first before).2) :=
    Prod.ext (watch_device ..) rfl
  obtain ⟨hcount, hload⟩ := lastGeneration_boots h n (watch board slot first before).2
  rw [run_append, watch_append, hwatch, hcount]
  exact ⟨hload, Nat.le_add_left ..⟩

theorem reliable_boots {before : List Event} (h : ∀ event ∈ before, event.Reliable) (n : Nat) :
    ∀ event ∈ before ++ List.replicate n quietBoot, event.Reliable := by
  intro event hmem
  rcases List.mem_append.mp hmem with hmem | hmem
  · exact h event hmem
  · rw [List.eq_of_mem_replicate hmem]
    exact quietBoot_reliable

/-- After `2 ^ 32 - 1` update sessions, each with one ACTIVATE and ended by its reset,
the generation is the last one. Four boots then hand slot A over as a pending one, and
the stored record stays the same. -/
theorem trial_boots_unbounded : ∃ image_crc32,
    let before := repeatedActivation image_crc32 (2 ^ 32 - 1)
    let events := before ++ List.replicate 4 quietBoot
    let first := firstDevice erasedCopies erasedSlots
    (∀ event ∈ events, event.Reliable) ∧
      (boot_state_store_load (first.run .F446 before).copies).pending_slot = BOOT_SLOT_A ∧
      boot_state_store_load (first.run .F446 events).copies =
        boot_state_store_load (first.run .F446 before).copies ∧
      BOOT_STATE_MAX_PENDING_ATTEMPTS.toNat < (watch .F446 BOOT_SLOT_A first events).2 := by
  obtain ⟨image_crc32, hrun⟩ := repeatedActivation_run
  have hawaits := hrun (2 ^ 32 - 1) (by decide) (by decide)
  obtain ⟨hload, hcount⟩ := boots_at_last hawaits 4
  exact ⟨image_crc32, reliable_boots (repeatedActivation_reliable image_crc32 _) 4,
    hawaits.pending, hload, Nat.lt_of_lt_of_le (by decide) hcount⟩

/-! ## The first trial boot of the small image -/

/-- A packet saves one record at most. -/
theorem processAll_saves_le {board : Board} (deliveries : List Delivery) (state : UpdateState) :
    (processAll board deliveries state).2.saves.length ≤ state.saves.length + deliveries.length := by
  induction deliveries generalizing state with
  | nil => exact Nat.le_refl _
  | cons delivery rest ih =>
    have hrest := ih (processOne board delivery state).2
    have hfirst : (processOne board delivery state).2.saves.length ≤ state.saves.length + 1 := by
      rcases saves_of_step (processOne_step board delivery state) with ⟨-, hs⟩ | ⟨-, -, hs⟩
      · rw [hs]
        exact Nat.le_succ _
      · rw [hs, List.length_append]
        exact Nat.le_refl _
    rw [List.length_cons]
    exact hrest.trans (by omega)

theorem length_download {binary : List UInt8} (hlen : binary.length = 0x240)
    (image_crc32 : UInt32) :
    ((run_update binary image_crc32 7 false).map (plain .F446)).length ≤ 9 := by
  have hrow := length_run_update binary image_crc32 7 false
  have hcount : blockCount binary = 5 := by
    unfold blockCount MAX_PAYLOAD
    rw [hlen]
  rw [List.length_map]
  omega

theorem length_smallDownload (image_crc32 : UInt32) : (smallDownload image_crc32).length ≤ 9 :=
  length_download (length_smallBinary 0 (by decide)) image_crc32

/-- A device that awaits a trial hands over once in its next boot, with one save. -/
theorem boot_at_trial {board : Board} {slot : UInt32} {generation : Nat} {first : Device}
    {before : List Event} (h : AwaitsTrial board slot generation (first.run board before)) :
    (first.run board (before ++ [quietBoot])).saves.length =
        (first.run board before).saves.length + 1 ∧
      1 ≤ (watch board slot first (before ++ [quietBoot])).2 := by
  obtain ⟨-, -, -, hsaves⟩ := trial_boot h.pending h.due h.bootable
  have hwatch : watch board slot first before =
      (first.run board before, (watch board slot first before).2) :=
    Prod.ext (watch_device ..) rfl
  rw [run_snoc, watch_snoc, hwatch, hsaves, List.length_append,
    trial_boot_counts h.pending h.due h.bootable]
  exact ⟨rfl, Nat.le_add_left ..⟩

theorem session_saves_le {board : Board} {deliveries : List Delivery}
    (h : ∀ d ∈ deliveries, d.save = .Completes) (copies : Copies) (slots : Slots) (ram : Ram) :
    ((firstDevice copies slots).run board (.Boot ram true .Completes .Completes ::
      deliveries.map .Packet)).saves.length ≤ deliveries.length := by
  rw [session_run h]
  refine (processAll_saves_le _ _).trans ?_
  have hnone : ((firstDevice copies slots).updateState boot_update_session_init).saves = [] := rfl
  rw [hnone, List.length_nil, Nat.zero_add]

theorem activationSession_saves (image_crc32 : UInt32) :
    ((firstDevice erasedCopies erasedSlots).run .F446
      (activationSession image_crc32)).saves.length ≤ 10 := by
  have hlength := length_smallDownload image_crc32
  refine (session_saves_le (activation_completes image_crc32) _ _ _).trans ?_
  rw [List.length_append, List.length_singleton]
  omega

/-- After one activation and one boot, slot A was handed over once. -/
theorem trial_boots_bounded_once : ∃ image_crc32,
    let first := firstDevice erasedCopies erasedSlots
    let events := activationSession image_crc32 ++ [quietBoot]
    let device := first.run .F446 events
    let trials := (watch .F446 BOOT_SLOT_A first events).2
    1 ≤ trials ∧ trials ≤ BOOT_STATE_MAX_PENDING_ATTEMPTS.toNat ∧
      ((boot_state_store_load device.copies).pending_slot = BOOT_SLOT_A →
        trials ≤ (boot_state_store_load device.copies).pending_attempts.toNat) := by
  obtain ⟨image_crc32, hawaits⟩ := activationSession_run
  obtain ⟨hsaves, hcount⟩ := boot_at_trial hawaits
  have hfew := activationSession_saves image_crc32
  exact ⟨image_crc32, hcount, trial_boots_bounded .F446 .erased erasedSlots (Or.inl rfl)
    (reliable_boots (activationSession_reliable image_crc32) 1) (by rw [hsaves]; omega)⟩

end stm32_vibe.trial_boots
