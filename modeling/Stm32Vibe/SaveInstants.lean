-- The flash copies at every instant of a boot run. One save leaves the record in
-- force alone. A second save writes over it, whether or not the first one left
-- a valid copy, since `main` ignores how its saves end.
import Stm32Vibe.Rollback

namespace stm32_vibe.save_instants

open boot_state boot_policy boot_state_store save_history boot_runtime boot_main rollback

/-! ## The instants of a row of saves -/

/-- One of the two copies passes `boot_state_validate`. -/
def SomeValid (copies : Copies) : Prop :=
  boot_state_validate (ofWords copies.a) = .Valid ∨ boot_state_validate (ofWords copies.b) = .Valid

/-- The condition holds after every flash step of every save, and before the first. -/
def AtEveryInstant (p : Copies → Prop) (copies : Copies) :
    List (BootStateRecord × SaveOutcome) → Prop
  | [] => p copies
  | (state, outcome) :: rest =>
    (∀ k ≤ outcome.steps, p (boot_state_store_save_next copies state (.PowerLost k)).1) ∧
      AtEveryInstant p (boot_state_store_save_next copies state outcome).1 rest

theorem copyRecord_ne_none (copy : Copy) :
    copyRecord copy ≠ none ↔ boot_state_validate (ofWords copy) = .Valid := by
  unfold copyRecord
  by_cases h : boot_state_validate (ofWords copy) = .Valid <;> simp [h]

theorem someValid_iff (copies : Copies) :
    SomeValid copies ↔ copies.log.even ≠ none ∨ copies.log.odd ≠ none :=
  or_congr (copyRecord_ne_none copies.a).symm (copyRecord_ne_none copies.b).symm

/-- A save that stops after as many steps leaves the same copies. -/
theorem save_of_steps (copies : Copies) (state : BootStateRecord) (outcome : SaveOutcome) :
    (boot_state_store_save_next copies state (.PowerLost outcome.steps)).1 =
      (boot_state_store_save_next copies state outcome).1 := by
  unfold boot_state_store_save_next write_record
  split <;> rfl

/-! ## One save -/

section
variable {copies : Copies} {first second : BootStateRecord}

/-- A loaded record stands in one of the copies. -/
theorem latest_of_valid (hv : SomeValid copies) :
    two_copy_log.latest generationOf copies.log = some (boot_state_store_load copies) := by
  have hsome : ∃ r, two_copy_log.latest generationOf copies.log = some r := by
    rcases (someValid_iff copies).mp hv with h | h
    · obtain ⟨q, hq⟩ := Option.ne_none_iff_exists'.mp h
      obtain ⟨r, hr, -⟩ := two_copy_log.le_latest generationOf (Or.inl hq)
      exact ⟨r, hr⟩
    · obtain ⟨q, hq⟩ := Option.ne_none_iff_exists'.mp h
      obtain ⟨r, hr, -⟩ := two_copy_log.le_latest generationOf (Or.inr hq)
      exact ⟨r, hr⟩
  obtain ⟨r, hr⟩ := hsome
  rw [load_eq, hr, Option.getD_some]

/-- At every instant of one save, the record before it stands in its copy. -/
theorem one_save_valid (ha : two_copy_log.Aligned generationOf copies.log) (hv : SomeValid copies)
    (step : RecordStep (boot_state_store_load copies) first) (outcome : SaveOutcome) :
    SomeValid (boot_state_store_save_next copies first outcome).1 := by
  rw [someValid_iff, log_save]
  rcases two_copy_log.put_keeps generationOf ha (latest_of_valid hv)
    (recordStep_parity step (load_inRange copies)) _ with h | h
  · left
    rw [h]
    nofun
  · right
    rw [h]
    nofun

/-! ## Two saves -/

/-- The copy that the first save leaves is valid: the one that stood there, when
nothing was done, and else the words that were written, with erased ones after them. -/
def FirstSaveValid (copies : Copies) (state : BootStateRecord) (outcome : SaveOutcome) : Prop :=
  match outcome.steps with
  | 0 => boot_state_validate (ofWords (if state.generation &&& 1 = 0 then copies.a else copies.b)) =
      .Valid
  | k + 1 => boot_state_validate
      (ofWords fun i => if i < k then state.words.getD i 0 else 0xFFFFFFFF) = .Valid

theorem firstSaveValid_iff (state : BootStateRecord) (outcome : SaveOutcome) :
    FirstSaveValid copies state outcome ↔
      copyRecord (write_record (if state.generation &&& 1 = 0 then copies.a else copies.b) state
        outcome).1 ≠ none := by
  rw [copyRecord_ne_none]
  unfold FirstSaveValid
  split
  · rename_i h
    rw [write_record_zero _ _ h]
  · rename_i k h
    have hsame : (ofWords fun i => if i < k then state.words.getD i 0 else 0xFFFFFFFF) =
        ofWords (write_record (if state.generation &&& 1 = 0 then copies.a else copies.b) state
          outcome).1 := by
      apply ofWords_congr
      intro i hi
      rw [write_record_succ _ _ h]
      by_cases hik : i < k
      · rw [if_pos hik, if_pos (by omega)]
      · rw [if_neg hik, if_neg (by omega)]
    rw [hsame]

/-- A copy that was only erased is not valid. -/
theorem erased_copy_invalid (copy : Copy) (state : BootStateRecord) :
    copyRecord (write_record copy state (.PowerLost 1)).1 = none := by
  have hwords : (write_record copy state (.PowerLost 1)).1 = erasedCopy := by
    funext i
    rw [write_record_succ copy state (rfl : (SaveOutcome.PowerLost 1).steps = 0 + 1)]
    rw [if_neg (by omega)]
    rfl
  rw [hwords, copyRecord_erased]

/-- At every instant of the second of two saves there is a valid copy exactly
when it does nothing or the first one left a valid copy. -/
theorem second_save_valid (ha : two_copy_log.Aligned generationOf copies.log)
    (hv : SomeValid copies) (step : RecordStep (boot_state_store_load copies) first)
    (step' : RecordStep first second) (outcome outcome' : SaveOutcome) :
    (∀ k ≤ outcome'.steps, SomeValid (boot_state_store_save_next
        (boot_state_store_save_next copies first outcome).1 second (.PowerLost k)).1) ↔
      (outcome'.steps = 0 ∨ FirstSaveValid copies first outcome) := by
  have hi := load_inRange copies
  have hparity := (recordStep_parity step' (recordStep_inRange step hi)).symm
  rw [firstSaveValid_iff]
  constructor
  · intro hall
    by_cases h0 : outcome'.steps = 0
    · exact Or.inl h0
    · right
      have hone := (someValid_iff _).mp (hall 1 (by omega))
      rw [log_save, log_save, erased_copy_invalid] at hone
      rcases two_copy_log.put_two hparity (copyRecord (write_record
        (if first.generation &&& 1 = 0 then copies.a else copies.b) first outcome).1) none with h | h
      · rw [h] at hone
        exact hone.resolve_right (fun h => h rfl)
      · rw [h] at hone
        exact hone.resolve_left (fun h => h rfl)
  · rintro (h0 | hfirst) k hk
    · have hk0 : (SaveOutcome.PowerLost k).steps = 0 := by
        show k = 0
        omega
      have hsame : (boot_state_store_save_next
          (boot_state_store_save_next copies first outcome).1 second (.PowerLost k)).1 =
          (boot_state_store_save_next copies first outcome).1 := save_unwritten _ second hk0
      rw [hsame]
      exact one_save_valid ha hv step outcome
    · rw [someValid_iff, log_save, log_save]
      rcases two_copy_log.put_two hparity (copyRecord (write_record
        (if first.generation &&& 1 = 0 then copies.a else copies.b) first outcome).1) _ with h | h
      · rw [h]
        exact Or.inl hfirst
      · rw [h]
        exact Or.inr hfirst

/-- One save never endangers the last valid copy. -/
theorem one_save_instants (ha : two_copy_log.Aligned generationOf copies.log)
    (hv : SomeValid copies) (step : RecordStep (boot_state_store_load copies) first)
    (outcome : SaveOutcome) : AtEveryInstant SomeValid copies [(first, outcome)] :=
  ⟨fun _ _ => one_save_valid ha hv step _, one_save_valid ha hv step outcome⟩

theorem two_saves_instants (ha : two_copy_log.Aligned generationOf copies.log)
    (hv : SomeValid copies) (step : RecordStep (boot_state_store_load copies) first)
    (step' : RecordStep first second) (outcome outcome' : SaveOutcome) :
    AtEveryInstant SomeValid copies [(first, outcome), (second, outcome')] ↔
      (outcome'.steps = 0 ∨ FirstSaveValid copies first outcome) := by
  rw [← second_save_valid ha hv step step' outcome outcome']
  constructor
  · exact fun h => h.2.1
  · intro h
    have hlast := h outcome'.steps (Nat.le_refl _)
    rw [save_of_steps] at hlast
    exact ⟨fun _ _ => one_save_valid ha hv step _, h, hlast⟩

end

/-! ## The saves of a boot run -/

/-- The run saves twice: it counts the attempt of a trial whose image or vectors
it then rejects, and the first save returns. -/
def SavesTwice (board : Board) (traffic : Bool) (count_save : SaveOutcome) (slots : Slots)
    (copies : Copies) (ram : Ram) : Prop :=
  let state := boot_state_store_load copies
  ram (BOOT_UPDATE_REQUEST_ADDR board).toNat ≠ UPDATE_HANDOFF_MAGIC ∧ traffic = false ∧
    TrialDue state ∧
    ¬ (ImageAccepted board slots state.pending_slot ∧
      VectorsAccepted board slots state.pending_slot) ∧
    count_save.isPowerLost = false

section
variable {board : Board} {traffic : Bool} {count_save bad_save : SaveOutcome} {slots : Slots}
  {copies : Copies} {ram : Ram}

/-- A run with an update request or traffic saves nothing. -/
theorem update_saves_nothing
    (h : ¬ (ram (BOOT_UPDATE_REQUEST_ADDR board).toNat ≠ UPDATE_HANDOFF_MAGIC ∧
      traffic = false)) :
    (main board traffic count_save bad_save slots copies ram).2.saves = [] := by
  by_cases hr : ram (BOOT_UPDATE_REQUEST_ADDR board).toNat = UPDATE_HANDOFF_MAGIC
  · simp only [main, update_handoff_take, hr, ne_eq, not_true_eq_false, if_false, if_true]
  · cases traffic with
    | true =>
      simp only [main, update_handoff_take, hr, ne_eq, not_false_eq_true, if_true,
        Bool.false_eq_true, if_false]
    | false => exact absurd ⟨hr, rfl⟩ h

theorem saves_twice (h : SavesTwice board traffic count_save slots copies ram) :
    (main board traffic count_save bad_save slots copies ram).2.saves =
      [(countAttempt (boot_state_store_load copies), count_save),
        (boot_policy_mark_pending_bad (countAttempt (boot_state_store_load copies)), bad_save)] := by
  obtain ⟨hr, rfl, due, hrejected, hc⟩ := h
  by_cases hi : ImageAccepted board slots (boot_state_store_load copies).pending_slot
  · have hv : ¬ VectorsAccepted board slots (boot_state_store_load copies).pending_slot :=
      fun hv => hrejected ⟨hi, hv⟩
    rw [main_path hr (.trial due hi) ⟨fun _ => hc, fun h => absurd h (by simp)⟩,
      finish_vectors_rejected hi hv, if_pos rfl]
    rfl
  · rw [main_no_update hr]
    simp only [select_trialDue board due, countAttempt_generation, ne_eq, next_generation_ne,
      not_false_eq_true, if_true, hc, Bool.false_eq_true, if_false]
    rw [main_image_fallback board slots bad_save hi]
    split
    · rfl
    · rw [(@finish_saves_nothing board bad_save slots _ false _ _ nofun).2]
      rfl

/-- Every run that does not save twice saves once at most. -/
theorem saves_once (h : ¬ SavesTwice board traffic count_save slots copies ram) :
    (main board traffic count_save bad_save slots copies ram).2.saves = [] ∨
      ∃ state, RecordStep (boot_state_store_load copies) state ∧
        (main board traffic count_save bad_save slots copies ram).2.saves =
          [(state, count_save)] := by
  by_cases hquiet : ram (BOOT_UPDATE_REQUEST_ADDR board).toNat ≠ UPDATE_HANDOFF_MAGIC ∧
      traffic = false
  · have hsaves := (@main_saves board traffic count_save bad_save slots copies ram).1
    generalize (main board traffic count_save bad_save slots copies ram).2.saves = saves at hsaves
    cases hsaves with
    | none => exact Or.inl rfl
    | count due => exact Or.inr ⟨_, .count due, rfl⟩
    | bad exhausted => exact Or.inr ⟨_, .bad exhausted.1, rfl⟩
    | both due rejected returns =>
      exact absurd ⟨hquiet.1, hquiet.2, due, rejected, returns⟩ h
  · exact Or.inl (update_saves_nothing hquiet)

end

/-- From every reachable store with a valid copy, a boot run has a valid copy at
every instant exactly when it does not write a second record over the last one
after a first save that left no valid copy. -/
theorem instants_valid_iff (board : Board) {copies : Copies} (hreach : StoreReachable copies)
    (hvalid : SomeValid copies) (traffic : Bool) (count_save bad_save : SaveOutcome)
    (slots : Slots) (ram : Ram) :
    AtEveryInstant SomeValid copies
        (main board traffic count_save bad_save slots copies ram).2.saves ↔
      (SavesTwice board traffic count_save slots copies ram →
        bad_save.steps = 0 ∨
          FirstSaveValid copies (countAttempt (boot_state_store_load copies)) count_save) := by
  have ha := hreach.good.aligned
  by_cases htwice : SavesTwice board traffic count_save slots copies ram
  · have hsaves := @saves_twice board traffic count_save bad_save slots copies ram htwice
    have due := htwice.2.2.1
    have hp : (countAttempt (boot_state_store_load copies)).pending_slot ≠ BOOT_STATE_NO_SLOT := by
      rw [countAttempt_pending_slot]
      exact due.1
    rw [hsaves, two_saves_instants ha hvalid (.count due) (.bad hp)]
    exact ⟨fun h _ => h, fun h => h htwice⟩
  · refine iff_of_true ?_ fun h => absurd h htwice
    rcases @saves_once board traffic count_save bad_save slots copies ram htwice with
      h | ⟨state, step, h⟩
    · rw [h]
      exact hvalid
    · rw [h]
      exact one_save_instants ha hvalid step count_save

/-! ## A pending slot B whose image is rejected -/

section
variable {copies : Copies} {first : BootStateRecord}

/-- A completed save leaves the whole record. -/
theorem completes_firstSaveValid (step : RecordStep (boot_state_store_load copies) first) :
    FirstSaveValid copies first .Completes := by
  have hfull : 21 ≤ SaveOutcome.Completes.steps := Nat.le_refl 21
  rw [firstSaveValid_iff, copyRecord_full _ (recordStep_valid step (load_inRange _)) hfull]
  nofun

/-- A save that fails after its erase leaves an erased copy. -/
theorem fails_firstSaveValid : ¬ FirstSaveValid copies first (.Fails 1) := by
  rw [firstSaveValid_iff]
  exact fun h => h (erased_copy_invalid _ _)

theorem image_someValid (mode : ImageMode) : SomeValid (image_for_mode mode) := by
  left
  rw [← copyRecord_ne_none, copyRecord_image]
  nofun

theorem activateSlot_someValid (ha : two_copy_log.Aligned generationOf copies.log)
    (hv : SomeValid copies) {slot : UInt32} (valid : slot_is_valid slot)
    (version image_crc32 : UInt32) : SomeValid (activateSlot copies slot version image_crc32) :=
  one_save_valid ha hv (.activate slot version image_crc32 valid) .Completes

/-- A quiet boot with slot B due and rejected saves twice, when its first save returns. -/
theorem savesTwice_rejected {board : Board} {slots : Slots} {ram : Ram} {count_save : SaveOutcome}
    (hr : ram (BOOT_UPDATE_REQUEST_ADDR board).toNat ≠ UPDATE_HANDOFF_MAGIC)
    (due : TrialDue (boot_state_store_load copies))
    (hslot : (boot_state_store_load copies).pending_slot = BOOT_SLOT_B)
    (hrejected : ¬ ImageAccepted board slots BOOT_SLOT_B) (hc : count_save.isPowerLost = false) :
    SavesTwice board false count_save slots copies ram := by
  refine ⟨hr, rfl, due, ?_, hc⟩
  rw [hslot]
  exact fun hboth => hrejected hboth.1

/-- When the first save fails after its erase, the second erases the last valid copy. -/
theorem fallback_not_instants {board : Board} {slots : Slots} {ram : Ram}
    (ha : two_copy_log.Aligned generationOf copies.log) (hv : SomeValid copies)
    (h : SavesTwice board false (.Fails 1) slots copies ram) :
    ¬ AtEveryInstant SomeValid copies
      (main board false (.Fails 1) .Completes slots copies ram).2.saves := by
  have due := h.2.2.1
  have hp : (countAttempt (boot_state_store_load copies)).pending_slot ≠ BOOT_STATE_NO_SLOT := by
    rw [countAttempt_pending_slot]
    exact due.1
  rw [saves_twice h, two_saves_instants ha hv (.count due) (.bad hp)]
  rintro (hzero | hfirst)
  · cases hzero
  · exact fails_firstSaveValid hfirst

end

theorem pendingB_someValid : SomeValid pendingB := by
  have hp := storeGood_provisioned (.image .ConfirmedA)
  exact activateSlot_someValid hp.aligned (image_someValid .ConfirmedA) (Or.inr rfl) 1 0

/-- With saves that complete, the boot that falls back has a valid copy throughout. -/
theorem instants_valid_iff_fallback :
    AtEveryInstant SomeValid pendingB
      (main .F446 false .Completes .Completes emptyBSlots pendingB (fun _ => 0)).2.saves := by
  have hfirst : FirstSaveValid pendingB (countAttempt (boot_state_store_load pendingB))
      .Completes := completes_firstSaveValid (.count pendingB_due)
  have hiff := instants_valid_iff .F446 pendingB_reachable pendingB_someValid false .Completes
    .Completes emptyBSlots fun _ => 0
  rw [hiff]
  intro _
  exact Or.inr hfirst

/-- A first save that fails after its erase costs the last valid copy. -/
theorem last_copy_erased :
    StoreReachable pendingB ∧ SomeValid pendingB ∧
      ¬ AtEveryInstant SomeValid pendingB
        (main .F446 false (.Fails 1) .Completes emptyBSlots pendingB (fun _ => 0)).2.saves :=
  ⟨pendingB_reachable, pendingB_someValid,
    fallback_not_instants pendingB_reachable.good.aligned pendingB_someValid
      (savesTwice_rejected zero_ne_magic pendingB_due pendingB_pending emptyB_rejected rfl)⟩

end stm32_vibe.save_instants
