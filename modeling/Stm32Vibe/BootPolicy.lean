-- The boot policy: which slot the next boot starts, the count of the trial
-- boots of a pending slot, the slot that an update may write, and the marks
-- pending and bad.
import Stm32Vibe.BootState

namespace stm32_vibe.boot_policy

open boot_state

/-! ## The functions of the policy -/

structure BootCandidate where
  slot : UInt32
  image_base : UInt32
  image_end : UInt32
  boot_pending : Bool
deriving DecidableEq, Repr

def slot_base (board : Board) (slot : UInt32) : UInt32 :=
  if slot = BOOT_SLOT_B then APP_SLOT_B_START_ADDR board else APP_SLOT_A_START_ADDR board

def slot_end (board : Board) (slot : UInt32) : UInt32 :=
  if slot = BOOT_SLOT_B then APP_SLOT_B_END_ADDR board else APP_SLOT_A_END_ADDR board

def status_for_slot (state : BootStateRecord) (slot : UInt32) : UInt32 :=
  boot_state_status_for_slot state slot

def set_status_for_slot (state : BootStateRecord) (slot status : UInt32) : BootStateRecord :=
  if slot = BOOT_SLOT_A then { state with slot_a_status := status }
  else if slot = BOOT_SLOT_B then { state with slot_b_status := status }
  else state

def slot_status_is_runnable (status : UInt32) : Prop :=
  status = BOOT_SLOT_STATUS_VALID ∨ status = BOOT_SLOT_STATUS_CONFIRMED

instance (status : UInt32) : Decidable (slot_status_is_runnable status) :=
  inferInstanceAs (Decidable (_ ∨ _))

def boot_policy_mark_pending_bad (state : BootStateRecord) : BootStateRecord :=
  if state.pending_slot ≠ BOOT_STATE_NO_SLOT then
    let state := set_status_for_slot state state.pending_slot BOOT_SLOT_STATUS_BAD
    boot_state_update_crc
      { state with
        pending_slot := BOOT_STATE_NO_SLOT
        pending_attempts := 0
        generation := state.generation + 1 }
  else state

/-- The candidate of a boot, and the record with the attempt counted or the
exhausted slot marked bad. -/
def boot_policy_select_candidate (board : Board) (state : BootStateRecord) :
    BootCandidate × BootStateRecord :=
  let slot := state.active_slot
  let state :=
    if state.pending_slot ≠ BOOT_STATE_NO_SLOT ∧
        state.pending_attempts ≥ BOOT_STATE_MAX_PENDING_ATTEMPTS ∧
        status_for_slot state state.pending_slot = BOOT_SLOT_STATUS_PENDING then
      boot_policy_mark_pending_bad state
    else state
  if state.pending_slot ≠ BOOT_STATE_NO_SLOT ∧
      state.pending_attempts < BOOT_STATE_MAX_PENDING_ATTEMPTS ∧
      status_for_slot state state.pending_slot = BOOT_SLOT_STATUS_PENDING then
    let slot := state.pending_slot
    ({ slot, image_base := slot_base board slot, image_end := slot_end board slot,
       boot_pending := true },
      boot_state_update_crc
        { state with
          pending_attempts := state.pending_attempts + 1
          generation := state.generation + 1 })
  else
    ({ slot, image_base := slot_base board slot, image_end := slot_end board slot,
       boot_pending := false }, state)

def boot_policy_inactive_slot (state : BootStateRecord) : UInt32 :=
  if state.pending_slot = BOOT_SLOT_A ∨ state.pending_slot = BOOT_SLOT_B then
    otherSlot state.pending_slot
  else if slot_status_is_runnable (status_for_slot state state.active_slot) then
    otherSlot state.active_slot
  else state.active_slot

def boot_policy_mark_slot_pending (state : BootStateRecord) (slot version image_crc32 : UInt32) :
    BootStateRecord :=
  if slot ≠ BOOT_SLOT_A ∧ slot ≠ BOOT_SLOT_B then state
  else
    let state := { state with pending_slot := slot, pending_attempts := 0 }
    let state := set_status_for_slot state slot BOOT_SLOT_STATUS_PENDING
    boot_state_update_crc
      { state with
        reserved :=
          (state.reserved.set BOOT_STATE_PENDING_VERSION_WORD version pending_version_word_lt).set
            BOOT_STATE_PENDING_CRC32_WORD image_crc32 pending_crc32_word_lt
        generation := state.generation + 1 }

/-! ## The status of a slot -/

section
variable (state : BootStateRecord) (slot status : UInt32)

theorem set_status_cases : ∃ a b,
    set_status_for_slot state slot status = { state with slot_a_status := a, slot_b_status := b } ∧
      (a = status ∨ a = state.slot_a_status) ∧ (b = status ∨ b = state.slot_b_status) := by
  unfold set_status_for_slot
  split
  · exact ⟨_, _, rfl, Or.inl rfl, Or.inr rfl⟩
  · split
    · exact ⟨_, _, rfl, Or.inr rfl, Or.inl rfl⟩
    · exact ⟨_, _, rfl, Or.inr rfl, Or.inr rfl⟩

@[simp] theorem set_status_active_slot :
    (set_status_for_slot state slot status).active_slot = state.active_slot := by
  obtain ⟨a, b, h, -⟩ := set_status_cases state slot status; rw [h]

@[simp] theorem set_status_pending_slot :
    (set_status_for_slot state slot status).pending_slot = state.pending_slot := by
  obtain ⟨a, b, h, -⟩ := set_status_cases state slot status; rw [h]

@[simp] theorem set_status_pending_attempts :
    (set_status_for_slot state slot status).pending_attempts = state.pending_attempts := by
  obtain ⟨a, b, h, -⟩ := set_status_cases state slot status; rw [h]

@[simp] theorem set_status_reserved :
    (set_status_for_slot state slot status).reserved = state.reserved := by
  obtain ⟨a, b, h, -⟩ := set_status_cases state slot status; rw [h]

@[simp] theorem set_status_generation :
    (set_status_for_slot state slot status).generation = state.generation := by
  obtain ⟨a, b, h, -⟩ := set_status_cases state slot status; rw [h]

theorem status_set_self (h : slot_is_valid slot) :
    status_for_slot (set_status_for_slot state slot status) slot = status := by
  rcases h with rfl | rfl <;> rfl

theorem status_set_ne {other : UInt32} (h : other ≠ slot) :
    status_for_slot (set_status_for_slot state slot status) other = status_for_slot state other := by
  unfold status_for_slot boot_state_status_for_slot set_status_for_slot
  by_cases ha : slot = BOOT_SLOT_A
  · simp [ha, show other ≠ BOOT_SLOT_A from ha ▸ h]
  · by_cases hb : slot = BOOT_SLOT_B
    · simp [hb, show other ≠ BOOT_SLOT_B from hb ▸ h]
    · simp [ha, hb]

theorem inRange_set_status (h : InRange state) (hs : slot_status_is_valid status) :
    InRange (set_status_for_slot state slot status) := by
  obtain ⟨a, b, he, ha, hb⟩ := set_status_cases state slot status
  rw [he]
  refine { h with slot_a_status := ?_, slot_b_status := ?_ }
  · rcases ha with rfl | rfl
    · exact hs
    · exact h.slot_a_status
  · rcases hb with rfl | rfl
    · exact hs
    · exact h.slot_b_status

end

theorem status_update_crc (state : BootStateRecord) (slot : UInt32) :
    status_for_slot (boot_state_update_crc state) slot = status_for_slot state slot := by
  simp only [status_for_slot, boot_state_status_for_slot, update_crc_slot_a_status,
    update_crc_slot_b_status]

theorem pending_slot_valid {state : BootStateRecord} (h : InRange state)
    (hp : state.pending_slot ≠ BOOT_STATE_NO_SLOT) : slot_is_valid state.pending_slot :=
  h.pending_slot.resolve_left hp

/-- An update always has a slot to write. -/
theorem inactive_slot_valid {state : BootStateRecord} (h : slot_is_valid state.active_slot) :
    slot_is_valid (boot_policy_inactive_slot state) := by
  unfold boot_policy_inactive_slot
  split
  · exact otherSlot_valid _
  · split
    · exact otherSlot_valid _
    · exact h

/-! ## A slot marked bad -/

section
variable {state : BootStateRecord} (hp : state.pending_slot ≠ BOOT_STATE_NO_SLOT)
include hp

theorem mark_pending_bad_generation :
    (boot_policy_mark_pending_bad state).generation = state.generation + 1 := by
  simp [boot_policy_mark_pending_bad, hp]

theorem mark_pending_bad_attempts : (boot_policy_mark_pending_bad state).pending_attempts = 0 := by
  simp [boot_policy_mark_pending_bad, hp]

theorem mark_pending_bad_status (h : InRange state) :
    status_for_slot (boot_policy_mark_pending_bad state) state.pending_slot =
      BOOT_SLOT_STATUS_BAD := by
  simp only [boot_policy_mark_pending_bad, hp, ne_eq, not_false_eq_true, if_true,
    status_update_crc]
  exact status_set_self _ _ _ (pending_slot_valid h hp)

theorem mark_pending_bad_valid (h : InRange state) :
    boot_state_validate (boot_policy_mark_pending_bad state) = .Valid := by
  simp only [boot_policy_mark_pending_bad, hp, ne_eq, not_false_eq_true, if_true]
  have hs := inRange_set_status state state.pending_slot BOOT_SLOT_STATUS_BAD h (by decide)
  exact update_crc_valid
    { hs with pending_slot := Or.inl rfl, pending_attempts := no_attempts_in_range }

end

theorem mark_pending_bad_pending_slot (state : BootStateRecord) :
    (boot_policy_mark_pending_bad state).pending_slot = BOOT_STATE_NO_SLOT := by
  unfold boot_policy_mark_pending_bad
  split
  · simp
  · simp_all

theorem mark_pending_bad_active_slot (state : BootStateRecord) :
    (boot_policy_mark_pending_bad state).active_slot = state.active_slot := by
  unfold boot_policy_mark_pending_bad
  split
  · simp
  · rfl

theorem mark_pending_bad_status_ne (state : BootStateRecord) {slot : UInt32}
    (h : slot ≠ state.pending_slot) :
    status_for_slot (boot_policy_mark_pending_bad state) slot = status_for_slot state slot := by
  unfold boot_policy_mark_pending_bad
  split
  · rw [status_update_crc]
    exact status_set_ne _ _ _ h
  · rfl

/-! ## The selection of a candidate -/

/-- The pending slot has used up its trial boots. -/
def Exhausted (state : BootStateRecord) : Prop :=
  state.pending_slot ≠ BOOT_STATE_NO_SLOT ∧
    state.pending_attempts ≥ BOOT_STATE_MAX_PENDING_ATTEMPTS ∧
    status_for_slot state state.pending_slot = BOOT_SLOT_STATUS_PENDING

/-- The pending slot has a trial boot left. -/
def TrialDue (state : BootStateRecord) : Prop :=
  state.pending_slot ≠ BOOT_STATE_NO_SLOT ∧
    state.pending_attempts < BOOT_STATE_MAX_PENDING_ATTEMPTS ∧
    status_for_slot state state.pending_slot = BOOT_SLOT_STATUS_PENDING

instance (state : BootStateRecord) : Decidable (Exhausted state) :=
  inferInstanceAs (Decidable (_ ∧ _))

instance (state : BootStateRecord) : Decidable (TrialDue state) :=
  inferInstanceAs (Decidable (_ ∧ _))

/-- The candidate that boots a slot. -/
def candidateFor (board : Board) (slot : UInt32) (boot_pending : Bool) : BootCandidate where
  slot := slot
  image_base := slot_base board slot
  image_end := slot_end board slot
  boot_pending := boot_pending

/-- The record with one more attempt of the pending slot. -/
def countAttempt (state : BootStateRecord) : BootStateRecord :=
  boot_state_update_crc
    { state with
      pending_attempts := state.pending_attempts + 1
      generation := state.generation + 1 }

theorem not_exhausted_of_trialDue {state : BootStateRecord} (h : TrialDue state) :
    ¬ Exhausted state := fun he => UInt32.not_lt.mpr he.2.1 h.2.1

theorem select_candidate_eq (board : Board) (state : BootStateRecord) :
    boot_policy_select_candidate board state =
      let marked := if Exhausted state then boot_policy_mark_pending_bad state else state
      if TrialDue marked then (candidateFor board marked.pending_slot true, countAttempt marked)
      else (candidateFor board state.active_slot false, marked) := rfl

theorem select_exhausted (board : Board) {state : BootStateRecord} (h : Exhausted state) :
    boot_policy_select_candidate board state =
      (candidateFor board state.active_slot false, boot_policy_mark_pending_bad state) := by
  rw [select_candidate_eq, if_pos h]
  exact if_neg (fun hd => hd.1 (mark_pending_bad_pending_slot state))

theorem select_trialDue (board : Board) {state : BootStateRecord} (h : TrialDue state) :
    boot_policy_select_candidate board state =
      (candidateFor board state.pending_slot true, countAttempt state) := by
  rw [select_candidate_eq, if_neg (not_exhausted_of_trialDue h)]
  exact if_pos h

theorem select_active (board : Board) {state : BootStateRecord} (he : ¬ Exhausted state)
    (hd : ¬ TrialDue state) :
    boot_policy_select_candidate board state =
      (candidateFor board state.active_slot false, state) := by
  rw [select_candidate_eq, if_neg he]
  exact if_neg hd

/-- With no pending slot, the active slot is the candidate and the record stays. -/
theorem select_no_pending (board : Board) {state : BootStateRecord}
    (h : state.pending_slot = BOOT_STATE_NO_SLOT) :
    boot_policy_select_candidate board state =
      (candidateFor board state.active_slot false, state) :=
  select_active board (fun he => he.1 h) (fun hd => hd.1 h)

theorem countAttempt_valid {state : BootStateRecord} (h : InRange state) (hd : TrialDue state) :
    boot_state_validate (countAttempt state) = .Valid := by
  refine update_crc_valid { h with pending_attempts := ?_ }
  have hlt := hd.2.1
  simp only [BOOT_STATE_MAX_PENDING_ATTEMPTS] at hlt ⊢
  grind

section
variable (state : BootStateRecord)

@[simp] theorem countAttempt_generation :
    (countAttempt state).generation = state.generation + 1 := by simp [countAttempt]

@[simp] theorem countAttempt_active_slot :
    (countAttempt state).active_slot = state.active_slot := by simp [countAttempt]

@[simp] theorem countAttempt_pending_slot :
    (countAttempt state).pending_slot = state.pending_slot := by simp [countAttempt]

@[simp] theorem countAttempt_attempts :
    (countAttempt state).pending_attempts = state.pending_attempts + 1 := by simp [countAttempt]

@[simp] theorem countAttempt_status (slot : UInt32) :
    status_for_slot (countAttempt state) slot = status_for_slot state slot :=
  status_update_crc _ slot

end

/-! ## A slot marked pending -/

section
variable (state : BootStateRecord) {slot : UInt32} (version image_crc32 : UInt32)
  (hs : slot_is_valid slot)
include hs

theorem mark_slot_pending_eq :
    boot_policy_mark_slot_pending state slot version image_crc32 =
      boot_state_update_crc
        { set_status_for_slot { state with pending_slot := slot, pending_attempts := 0 } slot
            BOOT_SLOT_STATUS_PENDING with
          reserved :=
            (state.reserved.set BOOT_STATE_PENDING_VERSION_WORD version pending_version_word_lt).set
              BOOT_STATE_PENDING_CRC32_WORD image_crc32 pending_crc32_word_lt
          generation := state.generation + 1 } := by
  have hn : ¬ (slot ≠ BOOT_SLOT_A ∧ slot ≠ BOOT_SLOT_B) := by
    rcases hs with rfl | rfl <;> decide
  simp only [boot_policy_mark_slot_pending, hn, if_false, set_status_reserved,
    set_status_generation]

theorem mark_slot_pending_generation :
    (boot_policy_mark_slot_pending state slot version image_crc32).generation =
      state.generation + 1 := by
  simp [mark_slot_pending_eq state version image_crc32 hs]

theorem mark_slot_pending_active_slot :
    (boot_policy_mark_slot_pending state slot version image_crc32).active_slot =
      state.active_slot := by
  simp [mark_slot_pending_eq state version image_crc32 hs]

theorem mark_slot_pending_pending_slot :
    (boot_policy_mark_slot_pending state slot version image_crc32).pending_slot = slot := by
  simp [mark_slot_pending_eq state version image_crc32 hs]

theorem mark_slot_pending_attempts :
    (boot_policy_mark_slot_pending state slot version image_crc32).pending_attempts = 0 := by
  simp [mark_slot_pending_eq state version image_crc32 hs]

theorem mark_slot_pending_status :
    status_for_slot (boot_policy_mark_slot_pending state slot version image_crc32) slot =
      BOOT_SLOT_STATUS_PENDING := by
  rw [mark_slot_pending_eq state version image_crc32 hs, status_update_crc]
  exact status_set_self _ _ _ hs

theorem mark_slot_pending_status_ne {other : UInt32} (h : other ≠ slot) :
    status_for_slot (boot_policy_mark_slot_pending state slot version image_crc32) other =
      status_for_slot state other := by
  rw [mark_slot_pending_eq state version image_crc32 hs, status_update_crc]
  exact status_set_ne _ _ _ h

theorem mark_slot_pending_reserved :
    (boot_policy_mark_slot_pending state slot version image_crc32).reserved =
      (state.reserved.set BOOT_STATE_PENDING_VERSION_WORD version pending_version_word_lt).set
        BOOT_STATE_PENDING_CRC32_WORD image_crc32 pending_crc32_word_lt := by
  simp [mark_slot_pending_eq state version image_crc32 hs]

theorem mark_slot_pending_valid (h : InRange state) :
    boot_state_validate (boot_policy_mark_slot_pending state slot version image_crc32) =
      .Valid := by
  rw [mark_slot_pending_eq state version image_crc32 hs]
  have hr : InRange { state with pending_slot := slot, pending_attempts := 0 } :=
    { h with pending_slot := Or.inr hs, pending_attempts := no_attempts_in_range }
  exact update_crc_valid { inRange_set_status _ slot _ hr (by decide) with }

end

/-! ## A pending slot confirmed -/

def boot_policy_confirm_pending (state : BootStateRecord) : BootStateRecord :=
  (boot_state_confirm_pending state).1

theorem confirm_no_pending {state : BootStateRecord}
    (h : state.pending_slot = BOOT_STATE_NO_SLOT) :
    boot_state_confirm_pending state = (state, false) := by
  unfold boot_state_confirm_pending
  rw [if_pos h]

/-- What a confirmation leaves: the pending slot is active and confirmed, the
other slot is valid, and no slot is pending. -/
structure Confirmed (before after : BootStateRecord) : Prop where
  generation : after.generation = before.generation + 1
  active_slot : after.active_slot = before.pending_slot
  pending_slot : after.pending_slot = BOOT_STATE_NO_SLOT
  pending_attempts : after.pending_attempts = 0
  confirmed : status_for_slot after before.pending_slot = BOOT_SLOT_STATUS_CONFIRMED
  other : status_for_slot after (otherSlot before.pending_slot) = BOOT_SLOT_STATUS_VALID

theorem confirm_pending_spec {state : BootStateRecord} (h : slot_is_valid state.pending_slot) :
    (boot_state_confirm_pending state).2 = true ∧
      Confirmed state (boot_state_confirm_pending state).1 := by
  have hne : state.pending_slot ≠ BOOT_STATE_NO_SLOT := by
    rcases h with h | h <;> rw [h] <;> decide
  unfold boot_state_confirm_pending
  rw [if_neg hne]
  rcases h with h | h
  · simp only [h, if_true]
    refine ⟨trivial, ?_, ?_, ?_, ?_, ?_, ?_⟩ <;>
      simp [h, status_for_slot, boot_state_status_for_slot, otherSlot]
  · simp only [h, if_true, slot_b_ne_slot_a, if_false]
    refine ⟨trivial, ?_, ?_, ?_, ?_, ?_, ?_⟩ <;>
      simp [h, status_for_slot, boot_state_status_for_slot, otherSlot]

theorem confirm_pending_valid {state : BootStateRecord} (h : InRange state)
    (hp : state.pending_slot ≠ BOOT_STATE_NO_SLOT) :
    boot_state_validate (boot_state_confirm_pending state).1 = .Valid := by
  unfold boot_state_confirm_pending
  rw [if_neg hp]
  have hs := pending_slot_valid h hp
  rcases hs with hs | hs
  · simp only [hs, if_true]
    exact update_crc_valid
      { h with
        active_slot := slot_a_valid
        pending_slot := Or.inl rfl
        slot_a_status := status_confirmed_in_range
        slot_b_status := status_valid_in_range
        pending_attempts := no_attempts_in_range }
  · simp only [hs, if_true, slot_b_ne_slot_a, if_false]
    exact update_crc_valid
      { h with
        active_slot := slot_b_valid
        pending_slot := Or.inl rfl
        slot_a_status := status_valid_in_range
        slot_b_status := status_confirmed_in_range
        pending_attempts := no_attempts_in_range }

end stm32_vibe.boot_policy
