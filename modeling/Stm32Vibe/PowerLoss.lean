-- Power that is lost in a save: the record in force afterwards is the one before
-- the save or has the policy of the saved one.
import Stm32Vibe.Device
import Stm32Vibe.TransferLaws

namespace stm32_vibe.power_loss

open boot_state boot_policy boot_state_store save_history boot_flash update_protocol update_session
  at_least_once finalize_image uart_update repeated_update transfer_laws device

/-- In a run with fewer than `2 ^ 32 - 1` saves, the store is what the saves
left one after the other, and each save left the record before it in force or
one with its own policy, and its own record when it completed. -/
theorem saves_are_atomic (board : Board) {copies : Copies} (hp : Provisioned copies)
    (slots : Slots) {events : List Event} (hr : ∀ event ∈ events, event.Reliable)
    (hfew : ((firstDevice copies slots).run board events).saves.length < 2 ^ 32 - 1) (n : Nat)
    {state : BootStateRecord} {outcome : SaveOutcome}
    (hn : ((firstDevice copies slots).run board events).saves[n]? = some (state, outcome)) :
    let device := (firstDevice copies slots).run board events
    let before := boot_state_store_load (replay copies (device.saves.take n))
    let after := boot_state_store_load (replay copies (device.saves.take (n + 1)))
    device.copies = replay copies device.saves ∧
      (outcome = .Completes → after = state) ∧
      (after = before ∨ after.policy = state.policy) := by
  intro device before after
  have hrun := runHistory hp hr hfew
  have hfirst := provisioned_generation hp
  refine ⟨history_replay hrun.history, ?_⟩
  exact history_atomic (storeGood_provisioned hp) hrun.history (by omega) n hn

/-! ## A small run -/

/-- An ACTIVATE whose save loses power at the tenth word of the record. -/
def cutActivate : Delivery where
  flash := driver .F446 noFault
  save := .PowerLost 11
  packet := bare UPDATE_CMD_ACTIVATE 7

/-- A first update of a fresh F446, with power lost in the save of its ACTIVATE. -/
def cutActivation (image_crc32 : UInt32) : List Event :=
  .Boot (fun _ => 0) true .Completes .Completes ::
    (smallDownload image_crc32 ++ [cutActivate]).map .Packet

/-- After a download that saves nothing, the cut save is the only one. -/
theorem cut_saves {deliveries : List Delivery} (hcompletes : ∀ d ∈ deliveries, d.save = .Completes)
    (hquiet : ∀ d ∈ deliveries, d.packet.command ≠ UPDATE_CMD_ACTIVATE)
    {copies : Copies} {first : BootUpdateSession} {binary : List UInt8}
    {image_crc32 version : UInt32}
    (hstage : Stage copies (validSession first copies binary image_crc32 7 version) binary
      (processAll .F446 deliveries freshState).2) :
    ∃ state, ((firstDevice erasedCopies erasedSlots).run .F446
        (.Boot (fun _ => 0) true .Completes .Completes ::
          (deliveries ++ [cutActivate]).map .Packet)).saves = [(state, .PowerLost 11)] := by
  have hrun : (firstDevice erasedCopies erasedSlots).run .F446
        (.Boot (fun _ => 0) true .Completes .Completes ::
          (deliveries ++ [cutActivate]).map .Packet) =
      (ofUpdate (processAll .F446 deliveries freshState).2).step .F446 (.Packet cutActivate) := by
    rw [List.map_append, List.map_singleton, ← List.cons_append, run_snoc, session_run hcompletes]
    rfl
  have hsaves := (@processAll_saves .F446 _ hquiet freshState).2
  generalize (processAll .F446 deliveries freshState).2 = state at hstage hsaves hrun
  have hof : OfSession cutActivate.packet state :=
    ofSession_of_eq hstage.session_eq rfl rfl
  have hprocess : processOne .F446 cutActivate state = _ :=
    process_activate_failed rfl hof
      (congrArg BootUpdateSession.candidate_valid hstage.session_eq) nofun
  refine ⟨activated state, ?_⟩
  rw [hrun, packet_saves, hprocess, hsaves]
  rfl

/-- The one save of that run is cut, and leaves the first record or its own policy. -/
theorem saves_are_atomic_cut : ∃ image_crc32 state,
    let device := (firstDevice erasedCopies erasedSlots).run .F446 (cutActivation image_crc32)
    let before := boot_state_store_load (replay erasedCopies (device.saves.take 0))
    let after := boot_state_store_load (replay erasedCopies (device.saves.take 1))
    device.saves = [(state, .PowerLost 11)] ∧
      device.copies = replay erasedCopies device.saves ∧
      (SaveOutcome.PowerLost 11 = .Completes → after = state) ∧
      (after = before ∨ after.policy = state.policy) := by
  obtain ⟨metadata, hok, hstage⟩ := small_download
  refine ⟨metadata.image_crc32, ?_⟩
  have hcompletes : ∀ d ∈ smallDownload metadata.image_crc32, d.save = .Completes := by
    intro d hd
    obtain ⟨packet, -, rfl⟩ := List.mem_map.mp hd
    rfl
  have hquiet : ∀ d ∈ smallDownload metadata.image_crc32,
      d.packet.command ≠ UPDATE_CMD_ACTIVATE := by
    intro d hd
    obtain ⟨packet, hpacket, rfl⟩ := List.mem_map.mp hd
    exact run_update_quiet hpacket
  have hreliable : ∀ event ∈ cutActivation metadata.image_crc32, event.Reliable := by
    intro event hmem
    rcases List.mem_cons.mp hmem with rfl | hmem
    · exact ⟨nofun, nofun⟩
    · obtain ⟨d, hd, rfl⟩ := List.mem_map.mp hmem
      rcases List.mem_append.mp hd with hd | hd
      · intro steps
        rw [hcompletes d hd]
        nofun
      · rw [List.mem_singleton.mp hd]
        nofun
  obtain ⟨state, hsaves⟩ := cut_saves hcompletes hquiet hstage
  have hlaws := saves_are_atomic .F446 .erased erasedSlots hreliable
    (by unfold cutActivation; rw [hsaves, List.length_singleton]; decide) 0
    (by unfold cutActivation; rw [hsaves]; rfl)
  exact ⟨state, hsaves, hlaws⟩

end stm32_vibe.power_loss
