-- Which slot a boot starts, and what the stored record says of that slot. The
-- active slot is started whatever its status is, so the two agree only under a
-- condition on the record and on the images.
import Stm32Vibe.Device
import Stm32Vibe.Handover

namespace stm32_vibe.started_slots

open boot_state boot_policy boot_state_store save_history boot_runtime boot_main handover
  device

/-! ## The stored record after a boot -/

/-- The record in force after the saves of a path. -/
def storedAfter (copies : Copies) (ram : Ram) (saved : List BootStateRecord)
    (count_save bad_save : SaveOutcome) : BootStateRecord :=
  boot_state_store_load
    (BootMemory.saveAll { copies, ram, saves := [] } saved count_save bad_save).copies

section
variable {board : Board} {slots : Slots} {copies : Copies} {ram : Ram}
  {candidate : BootCandidate} {last : BootStateRecord} {saved : List BootStateRecord}
  {count_save bad_save : SaveOutcome}

/-- What a run that jumps leaves in the store. -/
theorem stored_of_jumps {traffic : Bool}
    (h : Jumps board traffic count_save bad_save slots copies ram candidate last saved) :
    boot_state_store_load
        (main board traffic count_save bad_save slots copies ram).2.copies =
      storedAfter copies ram saved count_save bad_save := by
  rw [main_of_jumps h]
  rfl

/-- A path makes two saves at most, and each of its records is in the list of the saves. -/
theorem saves_of_jumps {traffic : Bool}
    (h : Jumps board traffic count_save bad_save slots copies ram candidate last saved) :
    (main board traffic count_save bad_save slots copies ram).2.saves.length = saved.length := by
  rw [main_of_jumps h]
  rcases bootPath_steps h.path with rfl | ⟨first, rfl, -⟩ | ⟨first, second, rfl, -⟩ <;> rfl

/-- However the saves end, the record in force has the policy of the one before
or of one that was saved, if a second save did not come after a failed one. -/
theorem policy_storedAfter (hg : StoreGood copies)
    (path : BootPath board slots (boot_state_store_load copies) candidate last saved)
    (hs : saved.length = 2 → count_save = .Completes) :
    (storedAfter copies ram saved count_save bad_save).policy =
        (boot_state_store_load copies).policy ∨
      ∃ state ∈ saved,
        (storedAfter copies ram saved count_save bad_save).policy = state.policy := by
  rcases bootPath_steps path with rfl | ⟨first, rfl, step⟩ | ⟨first, second, rfl, step, step'⟩
  · exact Or.inl rfl
  · rcases load_old_or_new step hg count_save with h | h
    · exact Or.inl (congrArg BootStateRecord.policy h)
    · exact Or.inr ⟨first, List.mem_singleton_self _, h⟩
  · rw [hs rfl]
    rcases load_after_two hg.aligned step step' bad_save with h | h | h
    · exact Or.inl (congrArg BootStateRecord.policy h)
    · exact Or.inr ⟨first, List.mem_cons_self, h⟩
    · exact Or.inr ⟨second, List.mem_cons_of_mem _ (List.mem_singleton_self _), h⟩

section
variable (ha : two_copy_log.Aligned generationOf copies.log)
include ha

theorem storedAfter_exhausted (exhausted : Exhausted (boot_state_store_load copies)) :
    storedAfter copies ram [boot_policy_mark_pending_bad (boot_state_store_load copies)]
        .Completes bad_save =
      if generationOf (boot_state_store_load copies) = 2 ^ 32 - 1 then boot_state_store_load copies
      else boot_policy_mark_pending_bad (boot_state_store_load copies) :=
  load_one_completed ha (.bad exhausted.1)

theorem storedAfter_fallback (due : TrialDue (boot_state_store_load copies)) :
    storedAfter copies ram [countAttempt (boot_state_store_load copies),
        boot_policy_mark_pending_bad (countAttempt (boot_state_store_load copies))]
        .Completes .Completes =
      if generationOf (boot_state_store_load copies) = 2 ^ 32 - 2 then
        countAttempt (boot_state_store_load copies)
      else boot_policy_mark_pending_bad (countAttempt (boot_state_store_load copies)) := by
  refine load_two_completed ha (.count due) (.bad ?_)
  rw [countAttempt_pending_slot]
  exact due.1

/-- With the last generation in force, a mark as bad is not: it has generation 0. -/
theorem storedAfter_wrapped (exhausted : Exhausted (boot_state_store_load copies))
    (hlast : generationOf (boot_state_store_load copies) = 2 ^ 32 - 1) :
    storedAfter copies ram [boot_policy_mark_pending_bad (boot_state_store_load copies)]
        count_save bad_save = boot_state_store_load copies := by
  exact load_save_wrapped ha hlast
    (recordStep_wrapped (.bad exhausted.1) (load_inRange copies) hlast) count_save

end

end

/-! ## The slots that may start -/

/-- The record lets the slot start: it is valid or confirmed, or it is the pending one. -/
def Startable (state : BootStateRecord) (slot : UInt32) : Prop :=
  slot_status_is_runnable (status_for_slot state slot) ∨
    status_for_slot state slot = BOOT_SLOT_STATUS_PENDING ∧ state.pending_slot = slot

/-- Every boot that jumps starts a slot that the record stored then lets start.
A boot that makes its second save after a failed first one is left out. -/
def StartsStartable (board : Board) (slots : Slots) (copies : Copies) : Prop :=
  ∀ (traffic : Bool) (count_save bad_save : SaveOutcome) (ram : Ram) (candidate : BootCandidate)
    (vector_base stack_pointer reset_handler got_base : UInt32),
    ((main board traffic count_save bad_save slots copies ram).2.saves.length = 2 →
      count_save.Reliable) →
    (main board traffic count_save bad_save slots copies ram).1 =
      .Jump candidate vector_base stack_pointer reset_handler got_base →
    Startable (boot_state_store_load
      (main board traffic count_save bad_save slots copies ram).2.copies) candidate.slot

/-- The active slot is runnable, or the boot does not come to it: a trial of a
valid image is due, or the active image does not boot. The last case is a mark
as bad that the last generation keeps out of force. -/
def ActiveDecides (board : Board) (slots : Slots) (state : BootStateRecord) : Prop :=
  slot_status_is_runnable (status_for_slot state state.active_slot) ∨
    (TrialDue state ∧ ImageAccepted board slots state.pending_slot) ∨
    ¬ Bootable board slots state.active_slot ∨
    (Exhausted state ∧ state.pending_slot = state.active_slot ∧
      generationOf state = 2 ^ 32 - 1)

section
variable {board : Board} {slots : Slots} {copies : Copies} {ram : Ram}
  {candidate : BootCandidate} {last : BootStateRecord} {saved : List BootStateRecord}
  {count_save bad_save : SaveOutcome}

theorem status_of_policy {state other : BootStateRecord} (h : state.policy = other.policy)
    (slot : UInt32) : status_for_slot state slot = status_for_slot other slot := by
  have hA : state.slot_a_status = other.slot_a_status := slot_a_status_of_policy h
  have hB : state.slot_b_status = other.slot_b_status := slot_b_status_of_policy h
  unfold status_for_slot boot_state_status_for_slot
  rw [hA, hB]

theorem startable_of_policy {state other : BootStateRecord} (h : state.policy = other.policy)
    {slot : UInt32} : Startable state slot ↔ Startable other slot := by
  have hp : state.pending_slot = other.pending_slot := pending_slot_of_policy h
  unfold Startable
  rw [status_of_policy h, hp]

theorem pending_not_runnable : ¬ slot_status_is_runnable BOOT_SLOT_STATUS_PENDING := by decide

/-- No record of a path changes the status of a slot that is not pending. -/
theorem path_status (path : BootPath board slots (boot_state_store_load copies) candidate last saved)
    {slot : UInt32} (hne : slot ≠ (boot_state_store_load copies).pending_slot)
    {state : BootStateRecord} (hmem : state ∈ saved) :
    status_for_slot state slot = status_for_slot (boot_state_store_load copies) slot := by
  have hcount := countAttempt_status (boot_state_store_load copies) slot
  cases path with
  | trial due accepted =>
    rw [List.mem_singleton.mp hmem]
    exact hcount
  | exhausted exhausted =>
    rw [List.mem_singleton.mp hmem]
    exact mark_pending_bad_status_ne _ hne
  | active not_exhausted not_due => cases hmem
  | fallback due rejected =>
    rcases List.mem_cons.mp hmem with rfl | hmem
    · exact hcount
    · rw [List.mem_singleton.mp hmem, mark_pending_bad_status_ne _ (by
        rw [countAttempt_pending_slot]; exact hne)]
      exact hcount

/-- Each record of a path names the same pending slot, or none. -/
theorem path_pending
    (path : BootPath board slots (boot_state_store_load copies) candidate last saved)
    {state : BootStateRecord} (hmem : state ∈ saved) :
    state.pending_slot = (boot_state_store_load copies).pending_slot ∨
      state.pending_slot = BOOT_STATE_NO_SLOT := by
  have hcount := countAttempt_pending_slot (boot_state_store_load copies)
  cases path with
  | trial due accepted =>
    rw [List.mem_singleton.mp hmem]
    exact Or.inl hcount
  | exhausted exhausted =>
    rw [List.mem_singleton.mp hmem]
    exact Or.inr (mark_pending_bad_pending_slot _)
  | active not_exhausted not_due => cases hmem
  | fallback due rejected =>
    rcases List.mem_cons.mp hmem with rfl | hmem
    · exact Or.inl hcount
    · rw [List.mem_singleton.mp hmem]
      exact Or.inr (mark_pending_bad_pending_slot _)

/-- The status of a slot that is not pending stays as it was, whatever a path saves. -/
theorem status_storedAfter (hg : StoreGood copies)
    (path : BootPath board slots (boot_state_store_load copies) candidate last saved)
    (hs : saved.length = 2 → count_save = .Completes)
    {slot : UInt32} (hne : slot ≠ (boot_state_store_load copies).pending_slot) :
    status_for_slot (storedAfter copies ram saved count_save bad_save) slot =
      status_for_slot (boot_state_store_load copies) slot := by
  rcases @policy_storedAfter _ _ _ ram _ _ _ _ bad_save hg path hs with h | ⟨state, hmem, h⟩
  · exact status_of_policy h slot
  · exact (status_of_policy h slot).trans (path_status path hne hmem)

/-- A slot that is neither runnable nor pending before a boot may not start after it. -/
theorem not_startable_after (hg : StoreGood copies)
    (path : BootPath board slots (boot_state_store_load copies) candidate last saved)
    (hs : saved.length = 2 → count_save = .Completes)
    {slot : UInt32} (hslot : slot_is_valid slot)
    (hne : slot ≠ (boot_state_store_load copies).pending_slot)
    (hr : ¬ slot_status_is_runnable (status_for_slot (boot_state_store_load copies) slot)) :
    ¬ Startable (storedAfter copies ram saved count_save bad_save) slot := by
  have hpending : (storedAfter copies ram saved count_save bad_save).pending_slot =
        (boot_state_store_load copies).pending_slot ∨
      (storedAfter copies ram saved count_save bad_save).pending_slot = BOOT_STATE_NO_SLOT := by
    rcases @policy_storedAfter _ _ _ ram _ _ _ _ bad_save hg path hs with h | ⟨state, hmem, h⟩
    · exact Or.inl (pending_slot_of_policy h)
    · have hsame : _ = state.pending_slot := pending_slot_of_policy h
      rcases path_pending path hmem with hp | hp
      · exact Or.inl (hsame.trans hp)
      · exact Or.inr (hsame.trans hp)
  rintro (h | ⟨-, h⟩)
  · rw [status_storedAfter hg path hs hne] at h
    exact hr h
  · rcases hpending with hp | hp
    · exact hne (h.symm.trans hp)
    · rw [hp] at h
      rw [← h] at hslot
      exact absurd hslot (by decide)

/-- A slot marked bad may not start. -/
theorem not_startable_bad {state : BootStateRecord} (hi : InRange state)
    (hp : state.pending_slot ≠ BOOT_STATE_NO_SLOT) :
    ¬ Startable (boot_policy_mark_pending_bad state) state.pending_slot := by
  rintro (h | ⟨-, h⟩)
  · rw [mark_pending_bad_status hp hi] at h
    exact absurd h (by decide)
  · rw [mark_pending_bad_pending_slot] at h
    exact hp h.symm

/-- The active slot is a slot, so a pending slot that equals it is one too. -/
theorem pending_of_active (hsame : (boot_state_store_load copies).active_slot =
    (boot_state_store_load copies).pending_slot) :
    (boot_state_store_load copies).pending_slot ≠ BOOT_STATE_NO_SLOT := by
  intro hnone
  have hvalid := (load_inRange copies).active_slot
  rw [hsame, hnone] at hvalid
  exact absurd hvalid (by decide)

/-- A boot that comes to an active slot without a runnable status starts it against the record. -/
theorem not_startable_of_path (hg : StoreGood copies)
    (path : BootPath board slots (boot_state_store_load copies) candidate last saved)
    (hnot : ¬ ActiveDecides board slots (boot_state_store_load copies)) :
    candidate.slot = (boot_state_store_load copies).active_slot ∧
      ¬ Startable (storedAfter copies ram saved .Completes .Completes) candidate.slot := by
  have hi := load_inRange copies
  have hrunnable : ¬ slot_status_is_runnable (status_for_slot (boot_state_store_load copies)
      (boot_state_store_load copies).active_slot) := fun h => hnot (Or.inl h)
  have hbootable : Bootable board slots (boot_state_store_load copies).active_slot := by
    by_contra h
    exact hnot (Or.inr (Or.inr (Or.inl h)))
  by_cases hsame : (boot_state_store_load copies).active_slot =
      (boot_state_store_load copies).pending_slot
  · -- the pending slot is the active one, and its image boots
    cases path with
    | trial due accepted => exact absurd (Or.inr (Or.inl ⟨due, accepted⟩)) hnot
    | exhausted exhausted =>
      refine ⟨rfl, ?_⟩
      rw [storedAfter_exhausted hg.aligned exhausted]
      split
      · rename_i hlast
        exact absurd (Or.inr (Or.inr (Or.inr ⟨exhausted, hsame.symm, hlast⟩))) hnot
      · unfold candidateFor
        dsimp only
        rw [hsame]
        exact not_startable_bad hi exhausted.1
    | active not_exhausted not_due =>
      rcases due_or_exhausted hg (pending_of_active hsame) with due | exhausted
      · exact absurd due not_due
      · exact absurd exhausted not_exhausted
    | fallback due rejected =>
      rw [← hsame] at rejected
      exact absurd hbootable.image rejected
  · have hcandidate : candidate.slot = (boot_state_store_load copies).active_slot := by
      cases path with
      | trial due accepted => exact absurd (Or.inr (Or.inl ⟨due, accepted⟩)) hnot
      | exhausted exhausted => rfl
      | active not_exhausted not_due => rfl
      | fallback due rejected => rfl
    refine ⟨hcandidate, ?_⟩
    rw [hcandidate]
    exact not_startable_after hg path (fun _ => rfl) hi.active_slot hsame hrunnable

/-- A runnable active slot keeps its status, since it is not the pending one. -/
theorem startable_runnable (hg : StoreGood copies)
    (path : BootPath board slots (boot_state_store_load copies) candidate last saved)
    (hs : saved.length = 2 → count_save = .Completes)
    (hr : slot_status_is_runnable (status_for_slot (boot_state_store_load copies)
      (boot_state_store_load copies).active_slot)) :
    Startable (storedAfter copies ram saved count_save bad_save)
      (boot_state_store_load copies).active_slot := by
  have hne : (boot_state_store_load copies).active_slot ≠
      (boot_state_store_load copies).pending_slot := by
    intro hsame
    have hmarked : status_for_slot (boot_state_store_load copies)
        (boot_state_store_load copies).pending_slot = BOOT_SLOT_STATUS_PENDING :=
      load_marked hg (pending_of_active hsame)
    rw [hsame, hmarked] at hr
    exact pending_not_runnable hr
  left
  rw [status_storedAfter hg path hs hne]
  exact hr

/-- A trial leaves its slot pending, with the attempt counted or not. -/
theorem startable_trial (hg : StoreGood copies) (due : TrialDue (boot_state_store_load copies)) :
    Startable (storedAfter copies ram [countAttempt (boot_state_store_load copies)] count_save
      bad_save) (boot_state_store_load copies).pending_slot := by
  rcases load_old_or_new (.count due) hg count_save with h | h
  · refine (startable_of_policy (congrArg BootStateRecord.policy h)).mpr ?_
    exact Or.inr ⟨due.2.2, rfl⟩
  · refine (startable_of_policy h).mpr ?_
    exact Or.inr ⟨(countAttempt_status _ _).trans due.2.2, countAttempt_pending_slot _⟩

/-- Under the condition, every slot that a path comes to and that boots may start. -/
theorem startable_of_path (hg : StoreGood copies)
    (path : BootPath board slots (boot_state_store_load copies) candidate last saved)
    (hs : saved.length = 2 → count_save = .Completes)
    (hb : Bootable board slots candidate.slot)
    (h : ActiveDecides board slots (boot_state_store_load copies)) :
    Startable (storedAfter copies ram saved count_save bad_save) candidate.slot := by
  have hrunnable := @startable_runnable _ _ _ ram _ _ _ _ bad_save hg path hs
  cases path with
  | trial due accepted => exact startable_trial hg due
  | exhausted exhausted =>
    rcases h with hr | ⟨due, -⟩ | hn | ⟨-, hsame, hlast⟩
    · exact hrunnable hr
    · exact absurd exhausted (not_exhausted_of_trialDue due)
    · exact absurd hb hn
    · right
      rw [storedAfter_wrapped hg.aligned exhausted hlast]
      unfold candidateFor
      dsimp only
      rw [← hsame]
      exact ⟨exhausted.2.2, rfl⟩
  | active not_exhausted not_due =>
    rcases h with hr | ⟨due, -⟩ | hn | ⟨exhausted, -⟩
    · exact hrunnable hr
    · exact absurd due not_due
    · exact absurd hb hn
    · exact absurd exhausted not_exhausted
  | fallback due rejected =>
    rcases h with hr | ⟨-, accepted⟩ | hn | ⟨exhausted, -⟩
    · exact hrunnable hr
    · exact absurd accepted rejected
    · exact absurd hb hn
    · exact absurd exhausted (not_exhausted_of_trialDue due)

end

theorem jumpTo_is_jump (board : Board) (slots : Slots) (candidate : BootCandidate) (ram : Ram) :
    ∃ vector_base stack_pointer reset_handler got_base, jumpTo board slots candidate ram =
      .Jump candidate vector_base stack_pointer reset_handler got_base := by
  unfold jumpTo
  dsimp only
  split
  · exact ⟨_, _, _, _, rfl⟩
  · exact ⟨_, _, _, _, rfl⟩

/-- Where the condition fails, a quiet boot starts the active slot against the record. -/
theorem not_startsStartable {board : Board} {slots : Slots} {copies : Copies}
    (hg : StoreGood copies) (hnot : ¬ ActiveDecides board slots (boot_state_store_load copies)) :
    ¬ StartsStartable board slots copies := by
  intro hstarts
  obtain ⟨candidate, last, saved, path⟩ :=
    bootPath_exists board slots (boot_state_store_load copies)
  obtain ⟨hslot, hbad⟩ := @not_startable_of_path _ _ _ (fun _ => 0) _ _ _ hg path hnot
  have hbootable : Bootable board slots candidate.slot := by
    rw [hslot]
    by_contra h
    exact hnot (Or.inr (Or.inr (Or.inl h)))
  have hj : Jumps board false .Completes .Completes slots copies (fun _ => 0) candidate last
      saved := ⟨zero_ne_magic, rfl, path, ⟨fun _ => rfl, fun _ => rfl⟩, hbootable⟩
  obtain ⟨vector_base, stack_pointer, reset_handler, got_base, hjump⟩ :=
    jumpTo_is_jump board slots candidate (preparedRam board slots candidate last fun _ => 0)
  have hstart := hstarts false .Completes .Completes (fun _ => 0) candidate vector_base
    stack_pointer reset_handler got_base (fun _ => completes_reliable)
    (by rw [main_of_jumps hj]; exact hjump)
  rw [stored_of_jumps hj] at hstart
  exact hbad hstart

/-- Under the condition, no boot starts a slot against the record. -/
theorem startsStartable_of_decides {board : Board} {slots : Slots} {copies : Copies}
    (hg : StoreGood copies) (h : ActiveDecides board slots (boot_state_store_load copies)) :
    StartsStartable board slots copies := by
  intro traffic count_save bad_save ram candidate vector_base stack_pointer reset_handler
    got_base hc hjump
  obtain ⟨last, saved, hj⟩ := jumps_of_main hjump
  rw [saves_of_jumps hj] at hc
  rw [stored_of_jumps hj]
  refine startable_of_path hg hj.path ?_ hj.bootable h
  intro htwo
  exact completes_of_returns (hc htwo) (hj.returns.first (by omega))

/-- After any run of a device, a boot starts only a slot that the record lets
start, whatever the slots hold then, exactly when the active slot may start or
no boot comes to it. -/
theorem starts_startable_iff (board : Board) {copies : Copies} (hp : Provisioned copies)
    (slots : Slots) (events : List Event) (found : Slots) :
    let device := (firstDevice copies slots).run board events
    StartsStartable board found device.copies ↔
      ActiveDecides board found (boot_state_store_load device.copies) := by
  intro device
  have hgood := (@run_reachable board _ hp slots events).store.good
  constructor
  · intro hstarts
    by_contra hnot
    exact not_startsStartable hgood hnot hstarts
  · exact startsStartable_of_decides hgood

theorem starts_startable_iff_confirmed :
    let device := (firstDevice (image_for_mode .ConfirmedA) smallSlots).run .F446 []
    StartsStartable .F446 smallSlots device.copies := by
  refine (starts_startable_iff .F446 (.image .ConfirmedA) smallSlots [] smallSlots).mpr (Or.inl ?_)
  show slot_status_is_runnable (status_for_slot (boot_state_store_load (image_for_mode .ConfirmedA))
    (boot_state_store_load (image_for_mode .ConfirmedA)).active_slot)
  rw [load_image_for_mode]
  simp [recordForMode, build_record_eq, status_for_slot, boot_state_status_for_slot,
    slot_status_is_runnable]

/-! ## The small image in an empty slot -/

theorem erased_active : (boot_state_store_load erasedCopies).active_slot = BOOT_SLOT_A := by
  rw [load_erased]
  simp [boot_state_init_default]

theorem erased_no_pending :
    (boot_state_store_load erasedCopies).pending_slot = BOOT_STATE_NO_SLOT := by
  rw [load_erased]
  simp [boot_state_init_default]

theorem erased_status :
    status_for_slot (boot_state_store_load erasedCopies) BOOT_SLOT_A = BOOT_SLOT_STATUS_EMPTY := by
  rw [load_erased]
  simp [boot_state_init_default, status_for_slot, boot_state_status_for_slot]

/-- An empty active slot with a bootable image decides nothing. -/
theorem empty_not_decides {board : Board} {slots : Slots} {state : BootStateRecord}
    (ha : state.active_slot = BOOT_SLOT_A) (hp : state.pending_slot = BOOT_STATE_NO_SLOT)
    (hs : status_for_slot state BOOT_SLOT_A = BOOT_SLOT_STATUS_EMPTY)
    (hb : Bootable board slots BOOT_SLOT_A) : ¬ ActiveDecides board slots state := by
  rintro (hr | ⟨due, -⟩ | hn | ⟨exhausted, -⟩)
  · rw [ha, hs] at hr
    exact absurd hr (by decide)
  · exact due.1 hp
  · rw [ha] at hn
    exact hn hb
  · exact exhausted.1 hp

/-- With nothing stored, a boot starts the image in slot A, which is empty in the record. -/
theorem empty_slot_started :
    Provisioned erasedCopies ∧
      status_for_slot (boot_state_store_load erasedCopies) BOOT_SLOT_A = BOOT_SLOT_STATUS_EMPTY ∧
      ¬ StartsStartable .F446 smallSlots erasedCopies := by
  refine ⟨.erased, erased_status, not_startsStartable (storeGood_provisioned .erased) ?_⟩
  have hb : Bootable .F446 smallSlots BOOT_SLOT_A := small_bootable (smallSlots_holds _)
  exact empty_not_decides erased_active erased_no_pending erased_status hb

end stm32_vibe.started_slots
