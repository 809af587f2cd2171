-- The device over its resets: boot runs of `main`, update sessions, and the
-- confirmation by the application. Power can go in any save, and a reset can
-- come at any time. All that the device saves is one history of the store.
import Stm32Vibe.BootMain
import Stm32Vibe.UpdateSession

namespace stm32_vibe.device

open boot_state boot_policy boot_state_store save_history boot_runtime boot_flash update_protocol
  update_session boot_main

/-! ## The confirmation -/

/-- `platform_confirm_pending_boot`: whether the record is confirmed, and the store after it. -/
def platform_confirm_pending_boot (copies : Copies) (save : SaveOutcome) :
    Bool × Copies × List (BootStateRecord × SaveOutcome) :=
  let (state, changed) := boot_state_confirm_pending (boot_state_store_load copies)
  if ¬ changed then (true, copies, [])
  else
    let (copies, ok) := boot_state_store_save_next copies state save
    (ok, copies, [(state, save)])

/-! ## The device -/

/-- What runs on the device. -/
inductive Mode where
  /-- Nothing, until the next reset. -/
  | Off
  /-- The update loop of the bootloader. -/
  | Update (session : BootUpdateSession)
  /-- The image that `main` jumped to. -/
  | Running (candidate : BootCandidate)
deriving DecidableEq, Repr

structure Device where
  copies : Copies
  slots : Slots
  saves : List (BootStateRecord × SaveOutcome)
  flash_calls : List FlashCall
  mode : Mode

inductive Event where
  /-- A reset, with what `main` finds in the RAM and sees on the line, and how its saves end. -/
  | Boot (ram : Ram) (traffic : Bool) (count_save bad_save : SaveOutcome)
  /-- A packet of the update loop. The reset that it may ask for is a later `Boot`: the
  loop handles the other packets of the same poll first. -/
  | Packet (delivery : Delivery)
  | Confirm (save : SaveOutcome)

/-- The mode that a boot run ends in. The update loop starts with a new session. -/
def modeOf : BootEnd → Mode
  | .Jump candidate _ _ _ _ => .Running candidate
  | .UpdateMode => .Update boot_update_session_init
  | .PowerLost => .Off

/-- The state that the update loop works on. -/
def Device.updateState (device : Device) (session : BootUpdateSession) : UpdateState where
  session := session
  copies := device.copies
  slots := device.slots
  saves := device.saves
  flash_calls := device.flash_calls

/-- The device with the state of its update loop. -/
def ofUpdate (state : UpdateState) : Device where
  copies := state.copies
  slots := state.slots
  saves := state.saves
  flash_calls := state.flash_calls
  mode := .Update state.session

/-- Power went in the save of a packet. -/
def lostPower (before after : UpdateState) (save : SaveOutcome) : Bool :=
  after.saves.length ≠ before.saves.length ∧ save.isPowerLost

def Device.step (board : Board) (device : Device) : Event → Device
  | .Boot ram traffic count_save bad_save =>
    let (ending, memory) :=
      main board traffic count_save bad_save device.slots device.copies ram
    { device with
      copies := memory.copies
      saves := device.saves ++ memory.saves
      mode := modeOf ending }
  | .Packet delivery =>
    match device.mode with
    | .Update session =>
      let state := device.updateState session
      let next := (processOne board delivery state).2
      if lostPower state next delivery.save then { ofUpdate next with mode := .Off }
      else ofUpdate next
    | _ => device
  | .Confirm save =>
    match device.mode with
    | .Running _ =>
      let (_, copies, saves) := platform_confirm_pending_boot device.copies save
      { device with
        copies
        saves := device.saves ++ saves
        mode := if saves ≠ [] ∧ save.isPowerLost then .Off else device.mode }
    | _ => device

def Device.run (board : Board) (device : Device) (events : List Event) : Device :=
  events.foldl (Device.step board) device

/-- A device that is off, with nothing saved yet. -/
def firstDevice (copies : Copies) (slots : Slots) : Device where
  copies := copies
  slots := slots
  saves := []
  flash_calls := []
  mode := .Off

theorem run_cons (board : Board) (device : Device) (event : Event) (events : List Event) :
    device.run board (event :: events) = (device.step board event).run board events := by
  unfold Device.run
  rw [List.foldl_cons]

theorem run_snoc (board : Board) (device : Device) (events : List Event) (event : Event) :
    device.run board (events ++ [event]) = (device.run board events).step board event := by
  unfold Device.run
  rw [List.foldl_append, List.foldl_cons, List.foldl_nil]

theorem run_append (board : Board) (device : Device) (events more : List Event) :
    device.run board (events ++ more) = (device.run board events).run board more := by
  unfold Device.run
  rw [List.foldl_append]

/-- Every save of the event completes or is cut by a power loss. -/
def Event.Reliable : Event → Prop
  | .Boot _ _ count_save bad_save => count_save.Reliable ∧ bad_save.Reliable
  | .Packet delivery => delivery.save.Reliable
  | .Confirm save => save.Reliable

/-! ## The saves of one event -/

section
variable {board : Board}

/-- The target of a session is a slot, from its start on. -/
theorem target_valid_step {flash : BootFlash} {save : SaveOutcome} {packet : UpdatePacket}
    {state next : UpdateState} {status : UpdateStatus}
    (h : slot_is_valid state.session.target_slot)
    (step : PacketStep board flash save packet state status next) :
    slot_is_valid next.session.target_slot := by
  cases step with
  | begun command accepted erased => exact beginSlot_valid state
  | aborted command => exact Or.inr rfl
  | idle => exact h
  | begin_failed => exact h
  | block_failed => exact h
  | block => exact h
  | ended => exact h
  | validated => exact h
  | activate_failed => exact h
  | activated => exact h

/-- A packet saves nothing, or it is an ACTIVATE and saves the record of its candidate. -/
theorem saves_of_step {flash : BootFlash} {save : SaveOutcome} {packet : UpdatePacket}
    {state next : UpdateState} {status : UpdateStatus}
    (step : PacketStep board flash save packet state status next) :
    (next.copies = state.copies ∧ next.saves = state.saves) ∨
      (packet.command = UPDATE_CMD_ACTIVATE ∧
        next.copies = (boot_state_store_save_next state.copies (activated state) save).1 ∧
        next.saves = state.saves ++ [(activated state, save)]) := by
  cases step with
  | activate_failed command => exact Or.inr ⟨command, rfl, rfl⟩
  | activated command => exact Or.inr ⟨command, rfl, rfl⟩
  | idle => exact Or.inl ⟨rfl, rfl⟩
  | begin_failed => exact Or.inl ⟨rfl, rfl⟩
  | begun => exact Or.inl ⟨rfl, rfl⟩
  | block_failed => exact Or.inl ⟨rfl, rfl⟩
  | block => exact Or.inl ⟨rfl, rfl⟩
  | ended => exact Or.inl ⟨rfl, rfl⟩
  | validated => exact Or.inl ⟨rfl, rfl⟩
  | aborted => exact Or.inl ⟨rfl, rfl⟩

/-- A confirmation saves nothing, or the confirmed record. -/
theorem confirm_cases (copies : Copies) (save : SaveOutcome) :
    ((platform_confirm_pending_boot copies save).2 = (copies, [])) ∨
      (boot_state_store_load copies).pending_slot ≠ BOOT_STATE_NO_SLOT ∧
        (platform_confirm_pending_boot copies save).2 =
          ((boot_state_store_save_next copies
              (boot_policy_confirm_pending (boot_state_store_load copies)) save).1,
            [(boot_policy_confirm_pending (boot_state_store_load copies), save)]) := by
  by_cases hp : (boot_state_store_load copies).pending_slot = BOOT_STATE_NO_SLOT
  · left
    unfold platform_confirm_pending_boot
    rw [confirm_no_pending hp]
    rfl
  · right
    refine ⟨hp, ?_⟩
    have hchanged := (confirm_pending_spec (pending_slot_valid (load_inRange copies) hp)).1
    unfold platform_confirm_pending_boot boot_policy_confirm_pending
    simp only [hchanged, not_true_eq_false, if_false]

end

/-! ## The history of the device -/

/-- The session of the update loop targets a slot. -/
def SessionGood (device : Device) : Prop :=
  ∀ session, device.mode = .Update session → slot_is_valid session.target_slot

/-- What one event saves, as a part of the history of the store. -/
structure StepHistory (board : Board) (device : Device) (event : Event)
    (saves : List (BootStateRecord × SaveOutcome)) : Prop where
  saves_eq : (device.step board event).saves = device.saves ++ saves
  history : SaveHistory device.copies saves (device.step board event).copies
  session : SessionGood (device.step board event)

section
variable {board : Board} {device : Device}

/-- Outside the update loop, a packet changes nothing. -/
theorem packet_ignored (h : ∀ session, device.mode ≠ .Update session) (delivery : Delivery) :
    device.step board (.Packet delivery) = device := by
  unfold Device.step
  cases hmode : device.mode with
  | Update session => exact absurd hmode (h session)
  | Off => rfl
  | Running candidate => rfl

/-- Only a running application confirms. -/
theorem confirm_ignored (h : ∀ candidate, device.mode ≠ .Running candidate) (save : SaveOutcome) :
    device.step board (.Confirm save) = device := by
  unfold Device.step
  cases hmode : device.mode with
  | Running candidate => exact absurd hmode (h candidate)
  | Off => rfl
  | Update session => rfl

theorem boot_session {ram : Ram} {traffic : Bool} {count_save bad_save : SaveOutcome} :
    SessionGood (device.step board (.Boot ram traffic count_save bad_save)) := by
  intro session hmode
  unfold Device.step modeOf at hmode
  dsimp only at hmode
  split at hmode
  · cases hmode
  · cases hmode
    exact Or.inr rfl
  · cases hmode

theorem boot_stepHistory {ram : Ram} {traffic : Bool} {count_save bad_save : SaveOutcome}
    (hc : count_save.Reliable)
    (hroom : generationOf (boot_state_store_load device.copies) + 1 < 2 ^ 32) :
    StepHistory board device (.Boot ram traffic count_save bad_save)
      (main board traffic count_save bad_save device.slots device.copies ram).2.saves :=
  ⟨rfl, main_history hc hroom, boot_session⟩

/-- In the update mode, the device follows the session. -/
theorem packet_step {session : BootUpdateSession} (hmode : device.mode = .Update session)
    (delivery : Delivery) :
    let next := (processOne board delivery (device.updateState session)).2
    (device.step board (.Packet delivery)).copies = next.copies ∧
      (device.step board (.Packet delivery)).saves = next.saves ∧
      ((device.step board (.Packet delivery)).mode = .Off ∨
        (device.step board (.Packet delivery)).mode = .Update next.session) := by
  unfold Device.step
  rw [hmode]
  dsimp only
  split
  · exact ⟨rfl, rfl, Or.inl rfl⟩
  · exact ⟨rfl, rfl, Or.inr rfl⟩

theorem packet_stepHistory {session : BootUpdateSession} (hmode : device.mode = .Update session)
    (htarget : slot_is_valid session.target_slot) (delivery : Delivery) :
    ∃ saves, StepHistory board device (.Packet delivery) saves := by
  have step := processOne_step board delivery (device.updateState session)
  obtain ⟨hcopies, hsaves, hafter⟩ := @packet_step board device session hmode delivery
  have hsession : SessionGood (device.step board (.Packet delivery)) := by
    intro session' hs
    rcases hafter with hoff | hupdate
    · rw [hoff] at hs
      cases hs
    · rw [hupdate] at hs
      cases hs
      exact target_valid_step htarget step
  rcases saves_of_step step with ⟨hc, hs⟩ | ⟨-, hc, hs⟩
  · refine ⟨[], ?_, ?_, hsession⟩
    · rw [hsaves, List.append_nil]
      exact hs
    · rw [hcopies, hc]
      exact .nil
  · refine ⟨_, hsaves.trans hs, ?_, hsession⟩
    rw [hcopies, hc]
    exact .save _ delivery.save (.activate _ _ _ htarget) .nil

/-- A packet leaves the store, or it is an ACTIVATE that saves the record of its candidate. -/
theorem packet_copies (hsession : SessionGood device) (delivery : Delivery) :
    (device.step board (.Packet delivery)).copies = device.copies ∨
      delivery.packet.command = UPDATE_CMD_ACTIVATE ∧
        ∃ slot version image_crc32, slot_is_valid slot ∧
          (device.step board (.Packet delivery)).copies =
            (boot_state_store_save_next device.copies
              (boot_policy_mark_slot_pending (boot_state_store_load device.copies) slot version
                image_crc32) delivery.save).1 := by
  by_cases hmode : ∃ session, device.mode = .Update session
  · obtain ⟨session, hmode⟩ := hmode
    rw [(@packet_step board device session hmode delivery).1]
    have step := processOne_step board delivery (device.updateState session)
    rcases saves_of_step step with ⟨hc, -⟩ | ⟨hcommand, hc, -⟩
    · exact Or.inl hc
    · exact Or.inr ⟨hcommand, _, _, _, hsession session hmode, hc⟩
  · left
    rw [packet_ignored fun session h => hmode ⟨session, h⟩]

theorem confirm_stepHistory {candidate : BootCandidate} (hmode : device.mode = .Running candidate)
    (save : SaveOutcome) :
    StepHistory board device (.Confirm save)
      (platform_confirm_pending_boot device.copies save).2.2 := by
  have hdevice : device.step board (.Confirm save) =
      { device with
        copies := (platform_confirm_pending_boot device.copies save).2.1
        saves := device.saves ++ (platform_confirm_pending_boot device.copies save).2.2
        mode := if (platform_confirm_pending_boot device.copies save).2.2 ≠ [] ∧ save.isPowerLost
          then .Off else device.mode } := by
    unfold Device.step
    rw [hmode]
  have hsession : SessionGood (device.step board (.Confirm save)) := by
    intro session hs
    rw [hdevice, hmode] at hs
    dsimp only at hs
    split at hs <;> cases hs
  refine ⟨by rw [hdevice], ?_, hsession⟩
  rw [hdevice]
  rcases confirm_cases device.copies save with h | ⟨hp, h⟩
  · rw [h]
    exact .nil
  · rw [h]
    exact .save _ save (.confirm hp) .nil

/-- What any event saves is a part of a history, as long as the generation does not wrap. -/
theorem stepHistory (hsession : SessionGood device) {event : Event} (hr : event.Reliable)
    (hroom : generationOf (boot_state_store_load device.copies) + 1 < 2 ^ 32) :
    ∃ saves, StepHistory board device event saves := by
  have hstays : device.step board event = device →
      ∃ saves, StepHistory board device event saves := by
    intro h
    refine ⟨[], ?_, ?_, ?_⟩
    · rw [h, List.append_nil]
    · rw [h]; exact .nil
    · rw [h]; exact hsession
  cases event with
  | Boot ram traffic count_save bad_save => exact ⟨_, boot_stepHistory hr.1 hroom⟩
  | Packet delivery =>
    by_cases hmode : ∃ session, device.mode = .Update session
    · obtain ⟨session, hmode⟩ := hmode
      exact packet_stepHistory hmode (hsession session hmode) delivery
    · exact hstays (packet_ignored (fun session h => hmode ⟨session, h⟩) delivery)
  | Confirm save =>
    by_cases hmode : ∃ candidate, device.mode = .Running candidate
    · obtain ⟨candidate, hmode⟩ := hmode
      exact ⟨_, confirm_stepHistory hmode save⟩
    · exact hstays (confirm_ignored (fun candidate h => hmode ⟨candidate, h⟩) save)

end

section
variable {board : Board} {copies : Copies} {slots : Slots}

/-- The saves of a run are one history of the store, from the first copies on. -/
structure RunHistory (start : Copies) (device : Device) : Prop where
  history : SaveHistory start device.saves device.copies
  session : SessionGood device

/-- The generation has room for one more save. -/
theorem RunHistory.room {device : Device} (hp : Provisioned copies)
    (h : RunHistory copies device) (hfew : device.saves.length < 2 ^ 32 - 1) :
    generationOf (boot_state_store_load device.copies) + 1 < 2 ^ 32 := by
  have hfirst := provisioned_generation hp
  have hle := history_generation (storeGood_provisioned hp) h.history (by omega)
  omega

/-- A save that was made stays in the list of the saves. -/
theorem saves_kept (device : Device) (event : Event) :
    device.saves <+: (device.step board event).saves := by
  unfold Device.step
  cases event with
  | Boot ram traffic count_save bad_save => exact List.prefix_append _ _
  | Packet delivery =>
    cases device.mode with
    | Update session =>
      dsimp only
      have hsaves : device.saves <+:
          (processOne board delivery (device.updateState session)).2.saves := by
        rcases saves_of_step (processOne_step board delivery (device.updateState session)) with
          ⟨-, hs⟩ | ⟨-, -, hs⟩
        · rw [hs]
          exact List.prefix_refl _
        · rw [hs]
          exact List.prefix_append _ _
      split
      · exact hsaves
      · exact hsaves
    | Off => exact List.prefix_refl _
    | Running candidate => exact List.prefix_refl _
  | Confirm save =>
    cases device.mode with
    | Running candidate => exact List.prefix_append _ _
    | Off => exact List.prefix_refl _
    | Update session => exact List.prefix_refl _

/-- The saves of a run with fewer than `2 ^ 32 - 1` of them are a history of the store. -/
theorem runHistory (hp : Provisioned copies) {events : List Event}
    (hr : ∀ event ∈ events, event.Reliable)
    (hfew : ((firstDevice copies slots).run board events).saves.length < 2 ^ 32 - 1) :
    RunHistory copies ((firstDevice copies slots).run board events) := by
  induction events using List.reverseRecOn with
  | nil => exact ⟨.nil, nofun⟩
  | append_singleton events event ih =>
    rw [run_snoc] at hfew ⊢
    have hgrow := (@saves_kept board ((firstDevice copies slots).run board events)
      event).length_le
    have hbefore := ih (fun e he => hr e (List.mem_append_left _ he)) (by omega)
    obtain ⟨saves, hstep⟩ := @stepHistory board _ hbefore.session _
      (hr event (List.mem_append_right _ (List.mem_singleton_self _)))
      (hbefore.room hp (by omega))
    refine ⟨?_, hstep.session⟩
    rw [hstep.saves_eq]
    exact history_trans hbefore.history hstep.history

end

/-! ## Every run, however its saves end -/

/-- The store is one that the firmware's saves lead to, and the session targets a slot. -/
structure DeviceReachable (device : Device) : Prop where
  store : StoreReachable device.copies
  session : SessionGood device

section
variable {board : Board}

theorem step_reachable {device : Device} (h : DeviceReachable device) (event : Event) :
    DeviceReachable (device.step board event) := by
  cases event with
  | Boot ram traffic count_save bad_save => exact ⟨main_reachable h.store, boot_session⟩
  | Packet delivery =>
    by_cases hmode : ∃ session, device.mode = .Update session
    · obtain ⟨session, hmode⟩ := hmode
      obtain ⟨saves, hstep⟩ := @packet_stepHistory board device session hmode
        (h.session session hmode) delivery
      refine ⟨?_, hstep.session⟩
      rcases @packet_copies board device h.session delivery with
        hc | ⟨-, slot, version, image_crc32, valid, hc⟩
      · rw [hc]
        exact h.store
      · rw [hc]
        exact .save _ delivery.save (.activate slot version image_crc32 valid) h.store
    · rw [packet_ignored fun session h => hmode ⟨session, h⟩]
      exact h
  | Confirm save =>
    by_cases hmode : ∃ candidate, device.mode = .Running candidate
    · obtain ⟨candidate, hmode⟩ := hmode
      refine ⟨?_, (confirm_stepHistory hmode save).session⟩
      have hcopies : (device.step board (.Confirm save)).copies =
          (platform_confirm_pending_boot device.copies save).2.1 := by
        unfold Device.step
        rw [hmode]
      rw [hcopies]
      rcases confirm_cases device.copies save with hc | ⟨hp, hc⟩
      · rw [hc]
        exact h.store
      · rw [hc]
        exact .save _ save (.confirm hp) h.store
    · rw [confirm_ignored fun candidate h => hmode ⟨candidate, h⟩]
      exact h

/-- Every run of a device reaches such a store. -/
theorem run_reachable {copies : Copies} (hp : Provisioned copies) (slots : Slots)
    (events : List Event) :
    DeviceReachable ((firstDevice copies slots).run board events) := by
  induction events using List.reverseRecOn with
  | nil => exact ⟨.provisioned hp, nofun⟩
  | append_singleton events event ih =>
    rw [run_snoc]
    exact step_reachable ih event

end

/-! ## Update sessions as rows of packets -/

section
variable {board : Board}

/-- A reset that sees traffic starts a session. -/
theorem boot_with_traffic (device : Device) (ram : Ram) (count_save bad_save : SaveOutcome) :
    device.step board (.Boot ram true count_save bad_save) =
      ofUpdate (device.updateState boot_update_session_init) := by
  by_cases hr : ram (BOOT_UPDATE_REQUEST_ADDR board).toNat = UPDATE_HANDOFF_MAGIC
  · simp [Device.step, main, update_handoff_take, hr, modeOf, ofUpdate, Device.updateState]
  · simp [Device.step, main, update_handoff_take, hr, modeOf, ofUpdate, Device.updateState]

theorem not_lostPower {before after : UpdateState} {save : SaveOutcome}
    (h : save.isPowerLost = false) : lostPower before after save = false := by
  unfold lostPower
  rw [h]
  simp

/-- With or without power lost, the saves of a packet are those of the session. -/
theorem packet_saves (state : UpdateState) (delivery : Delivery) :
    ((ofUpdate state).step board (.Packet delivery)).saves =
      (processOne board delivery state).2.saves := by
  unfold Device.step ofUpdate
  dsimp only
  split <;> rfl

/-- Packets whose saves complete move the device as the session moves its state. -/
theorem run_packets {deliveries : List Delivery} (h : ∀ d ∈ deliveries, d.save = .Completes)
    (state : UpdateState) :
    (ofUpdate state).run board (deliveries.map .Packet) =
      ofUpdate (processAll board deliveries state).2 := by
  induction deliveries generalizing state with
  | nil => rfl
  | cons delivery rest ih =>
    have hfirst : (ofUpdate state).step board (.Packet delivery) =
        ofUpdate (processOne board delivery state).2 := by
      have hkept : lostPower state (processOne board delivery state).2 delivery.save = false :=
        not_lostPower (by rw [h delivery (List.mem_cons_self ..)]; rfl)
      exact if_neg (by rw [Bool.not_eq_true]; exact hkept)
    have hrest := ih (fun d hd => h d (List.mem_cons_of_mem _ hd))
      (processOne board delivery state).2
    rw [List.map_cons, run_cons, hfirst]
    exact hrest

/-- The same from a reset on. -/
theorem session_run {deliveries : List Delivery} (h : ∀ d ∈ deliveries, d.save = .Completes)
    (device : Device) (ram : Ram) (count_save bad_save : SaveOutcome) :
    device.run board (.Boot ram true count_save bad_save :: deliveries.map .Packet) =
      ofUpdate (processAll board deliveries (device.updateState boot_update_session_init)).2 := by
  rw [← run_packets h]
  rw [run_cons, boot_with_traffic]

/-- Packets other than ACTIVATE save nothing. -/
theorem processAll_saves {deliveries : List Delivery}
    (h : ∀ d ∈ deliveries, d.packet.command ≠ UPDATE_CMD_ACTIVATE) (state : UpdateState) :
    (processAll board deliveries state).2.copies = state.copies ∧
      (processAll board deliveries state).2.saves = state.saves := by
  induction deliveries generalizing state with
  | nil => exact ⟨rfl, rfl⟩
  | cons delivery rest ih =>
    have step := processOne_step board delivery state
    obtain ⟨hcopies, hsaves⟩ := ih (fun d hd => h d (List.mem_cons_of_mem _ hd))
      (processOne board delivery state).2
    rcases saves_of_step step with ⟨hc, hs⟩ | ⟨hactivate, -, -⟩
    · exact ⟨hcopies.trans hc, hsaves.trans hs⟩
    · exact absurd hactivate (h delivery (List.mem_cons_self ..))

end

end stm32_vibe.device
