-- The boot state record under the operations of the policy: whatever row of them
-- runs on a first record, it stays valid and its fields agree with each other.
import Stm32Vibe.SaveHistory

namespace stm32_vibe.record_invariant

open boot_state boot_policy boot_state_store save_history

/-! ## The operations -/

/-- The calls that change a record. -/
inductive RecordOperation where
  | mark_slot_pending (slot version image_crc32 : UInt32) (valid : slot_is_valid slot)
  | select_candidate (board : Board)
  | mark_pending_bad
  | confirm_pending

def RecordOperation.apply (state : BootStateRecord) : RecordOperation → BootStateRecord
  | .mark_slot_pending slot version image_crc32 _ =>
    boot_policy_mark_slot_pending state slot version image_crc32
  | .select_candidate board => (boot_policy_select_candidate board state).2
  | .mark_pending_bad => boot_policy_mark_pending_bad state
  | .confirm_pending => (boot_state_confirm_pending state).1

/-- The records that a device starts with. -/
inductive FirstRecord : BootStateRecord → Prop where
  | init_default : FirstRecord boot_state_init_default
  | image (mode : ImageMode) : FirstRecord (recordForMode mode)

def runOperations (first : BootStateRecord) (operations : List RecordOperation) :
    BootStateRecord :=
  operations.foldl RecordOperation.apply first

/-- What a selection leaves as the record. -/
theorem select_record_cases (board : Board) (state : BootStateRecord) :
    (boot_policy_select_candidate board state).2 = state ∨
      Exhausted state ∧
        (boot_policy_select_candidate board state).2 = boot_policy_mark_pending_bad state ∨
      TrialDue state ∧ (boot_policy_select_candidate board state).2 = countAttempt state := by
  by_cases hexhausted : Exhausted state
  · exact Or.inr (Or.inl ⟨hexhausted, congrArg Prod.snd (select_exhausted board hexhausted)⟩)
  · by_cases hdue : TrialDue state
    · exact Or.inr (Or.inr ⟨hdue, congrArg Prod.snd (select_trialDue board hdue)⟩)
    · exact Or.inl (congrArg Prod.snd (select_active board hexhausted hdue))

/-- An operation leaves the record alone or makes one step of the firmware. -/
theorem operation_step (state : BootStateRecord) (operation : RecordOperation) :
    operation.apply state = state ∨ RecordStep state (operation.apply state) := by
  cases operation with
  | mark_slot_pending slot version image_crc32 valid =>
    exact Or.inr (.activate slot version image_crc32 valid)
  | select_candidate board =>
    dsimp only [RecordOperation.apply]
    rcases select_record_cases board state with hsame | ⟨hexhausted, hbad⟩ | ⟨hdue, hcount⟩
    · exact Or.inl hsame
    · rw [hbad]
      exact Or.inr (.bad hexhausted.1)
    · rw [hcount]
      exact Or.inr (.count hdue)
  | mark_pending_bad =>
    by_cases hpending : state.pending_slot = BOOT_STATE_NO_SLOT
    · exact Or.inl (if_neg (not_not.mpr hpending))
    · exact Or.inr (.bad hpending)
  | confirm_pending =>
    by_cases hpending : state.pending_slot = BOOT_STATE_NO_SLOT
    · exact Or.inl (congrArg Prod.fst (confirm_no_pending hpending))
    · exact Or.inr (.confirm hpending)

/-! ## The invariant -/

/-- A valid record whose pending slot is marked, with no attempts when there is none. -/
structure RecordGood (state : BootStateRecord) : Prop where
  valid : boot_state_validate state = .Valid
  marked : PendingMarked state
  unused : state.pending_slot = BOOT_STATE_NO_SLOT → state.pending_attempts = 0

section
variable {state next : BootStateRecord}

theorem RecordGood.inRange (h : RecordGood state) : InRange state :=
  ((boot_state_validate_iff state).mp h.valid).1

/-- A record without a pending slot and in range is good. -/
theorem good_of_idle (h : boot_state_validate state = .Valid)
    (hidle : state.pending_slot = BOOT_STATE_NO_SLOT) (hzero : state.pending_attempts = 0) :
    RecordGood state :=
  ⟨h, fun hpending => absurd hidle hpending, fun _ => hzero⟩

theorem firstRecord_good (h : FirstRecord state) : RecordGood state := by
  cases h with
  | init_default =>
    refine good_of_idle init_default_valid ?_ ?_
    · simp [boot_state_init_default]
    · simp [boot_state_init_default]
  | image mode =>
    have hvalid : boot_state_validate (recordForMode mode) = .Valid := by
      cases mode with
      | Empty => exact build_record_valid slot_a_valid (by decide) (by decide)
      | ConfirmedA => exact build_record_valid slot_a_valid (by decide) (by decide)
      | ConfirmedB => exact build_record_valid slot_b_valid (by decide) (by decide)
    cases mode with
    | Empty => exact good_of_idle hvalid rfl rfl
    | ConfirmedA => exact good_of_idle hvalid rfl rfl
    | ConfirmedB => exact good_of_idle hvalid rfl rfl

theorem recordStep_unused (step : RecordStep state next) (hi : InRange state)
    (hidle : next.pending_slot = BOOT_STATE_NO_SLOT) : next.pending_attempts = 0 := by
  cases step with
  | count due =>
    rw [countAttempt_pending_slot] at hidle
    exact absurd hidle due.1
  | bad pending => exact mark_pending_bad_attempts pending
  | confirm pending =>
    exact (confirm_pending_spec (pending_slot_valid hi pending)).2.pending_attempts
  | activate slot version image_crc32 valid =>
    exact mark_slot_pending_attempts state version image_crc32 valid

theorem operation_good (h : RecordGood state) (operation : RecordOperation) :
    RecordGood (operation.apply state) := by
  rcases operation_step state operation with hsame | hstep
  · rw [hsame]
    exact h
  · exact ⟨recordStep_valid hstep h.inRange, recordStep_marked hstep h.inRange,
      recordStep_unused hstep h.inRange⟩

theorem run_good (h : FirstRecord state) (operations : List RecordOperation) :
    RecordGood (runOperations state operations) := by
  induction operations using List.reverseRecOn with
  | nil => exact firstRecord_good h
  | append_singleton operations operation ih =>
    unfold runOperations at ih ⊢
    rw [List.foldl_append]
    exact operation_good ih operation

/-! ## What one operation changes -/

/-- Only a confirmation changes the active slot. -/
theorem operation_active_slot {operation : RecordOperation}
    (h : operation ≠ .confirm_pending) :
    (operation.apply state).active_slot = state.active_slot := by
  cases operation with
  | mark_slot_pending slot version image_crc32 valid =>
    exact mark_slot_pending_active_slot state version image_crc32 valid
  | select_candidate board =>
    dsimp only [RecordOperation.apply]
    rcases select_record_cases board state with hsame | ⟨hexhausted, hbad⟩ | ⟨hdue, hcount⟩
    · rw [hsame]
    · rw [hbad]
      exact mark_pending_bad_active_slot state
    · rw [hcount]
      exact countAttempt_active_slot state
  | mark_pending_bad => exact mark_pending_bad_active_slot state
  | confirm_pending => exact absurd rfl h

/-- With nothing pending there is nothing to confirm. -/
theorem confirm_nothing (h : state.pending_slot = BOOT_STATE_NO_SLOT) :
    (boot_state_confirm_pending state).1 = state := by
  rw [boot_state_confirm_pending, if_pos h]

/-- The two records are saved to different copies. -/
def Alternate (state next : BootStateRecord) : Prop :=
  ∀ (copies : Copies) (outcome outcome' : SaveOutcome),
    (boot_state_store_save_next copies state outcome).1.a = copies.a ∧
        (boot_state_store_save_next copies next outcome').1.b = copies.b ∨
      (boot_state_store_save_next copies state outcome).1.b = copies.b ∧
        (boot_state_store_save_next copies next outcome').1.a = copies.a

theorem save_beside (copies : Copies) (outcome : SaveOutcome) :
    (generationOf state % 2 = 0 →
        (boot_state_store_save_next copies state outcome).1.b = copies.b) ∧
      (generationOf state % 2 ≠ 0 →
        (boot_state_store_save_next copies state outcome).1.a = copies.a) := by
  unfold boot_state_store_save_next
  rw [ne_eq, ← even_iff]
  constructor
  · intro heven
    rw [if_pos heven]
  · intro hodd
    rw [if_neg hodd]

theorem recordStep_alternate (step : RecordStep state next) (hi : InRange state) :
    Alternate state next := by
  intro copies outcome outcome'
  have hparity := recordStep_parity step hi
  by_cases heven : generationOf state % 2 = 0
  · right
    exact ⟨(save_beside copies outcome).1 heven, (save_beside copies outcome').2 (by omega)⟩
  · left
    exact ⟨(save_beside copies outcome).2 heven, (save_beside copies outcome').1 (by omega)⟩

/-- In every record that the operations lead to, and after one more of them. -/
theorem record_laws (first : BootStateRecord) (h : FirstRecord first)
    (operations : List RecordOperation) :
    let state := runOperations first operations
    boot_state_validate state = .Valid ∧
    (∀ slot, slot_is_valid slot → state.pending_slot = slot →
      status_for_slot state slot = BOOT_SLOT_STATUS_PENDING ∧ state.pending_attempts ≤ 3) ∧
    (state.pending_slot = BOOT_STATE_NO_SLOT → state.pending_attempts = 0) ∧
    ∀ operation : RecordOperation,
      (operation ≠ .confirm_pending →
        (operation.apply state).active_slot = state.active_slot) ∧
      (operation = .confirm_pending → state.pending_slot ≠ BOOT_STATE_NO_SLOT →
        (operation.apply state).active_slot = state.pending_slot) ∧
      (operation = .confirm_pending → state.pending_slot = BOOT_STATE_NO_SLOT →
        operation.apply state = state) ∧
      (operation.apply state = state ∨
        (operation.apply state).generation = state.generation + 1 ∧
          Alternate state (operation.apply state)) := by
  intro state
  have hgood : RecordGood state := run_good h operations
  have hi := hgood.inRange
  refine ⟨hgood.valid, ?_, hgood.unused, ?_⟩
  · intro slot hslot hpending
    have hnamed : state.pending_slot ≠ BOOT_STATE_NO_SLOT := by
      rw [hpending]
      rcases hslot with rfl | rfl
      · decide
      · decide
    rw [← hpending]
    exact ⟨hgood.marked hnamed, hi.pending_attempts⟩
  · intro operation
    refine ⟨operation_active_slot, ?_, ?_, ?_⟩
    · rintro rfl hpending
      exact (confirm_pending_spec (pending_slot_valid hi hpending)).2.active_slot
    · rintro rfl hnone
      exact confirm_nothing hnone
    · rcases operation_step state operation with hsame | hstep
      · exact Or.inl hsame
      · exact Or.inr ⟨recordStep_generation hstep hi, recordStep_alternate hstep hi⟩

/-- Slot B activated beside the confirmed slot A, and one boot selected. -/
theorem record_laws_activated :
    let state := runOperations (recordForMode .ConfirmedA)
      [.mark_slot_pending BOOT_SLOT_B 2 7 slot_b_valid, .select_candidate .F446]
    state.pending_slot = BOOT_SLOT_B ∧ boot_state_validate state = .Valid ∧
      status_for_slot state BOOT_SLOT_B = BOOT_SLOT_STATUS_PENDING ∧
      state.pending_attempts ≤ 3 := by
  intro state
  have hpending : state.pending_slot = BOOT_SLOT_B := by
    have hmarked := mark_slot_pending_pending_slot (recordForMode .ConfirmedA) 2 7 slot_b_valid
    have hdue : TrialDue
        (boot_policy_mark_slot_pending (recordForMode .ConfirmedA) BOOT_SLOT_B 2 7) := by
      refine ⟨?_, ?_, ?_⟩
      · rw [hmarked]
        decide
      · rw [mark_slot_pending_attempts _ 2 7 slot_b_valid]
        decide
      · rw [hmarked]
        exact mark_slot_pending_status _ 2 7 slot_b_valid
    have hselect : state = countAttempt
        (boot_policy_mark_slot_pending (recordForMode .ConfirmedA) BOOT_SLOT_B 2 7) :=
      congrArg Prod.snd (select_trialDue .F446 hdue)
    rw [hselect, countAttempt_pending_slot, hmarked]
  obtain ⟨hvalid, hnamed, -, -⟩ := record_laws (recordForMode .ConfirmedA)
    (.image .ConfirmedA)
    [.mark_slot_pending BOOT_SLOT_B 2 7 slot_b_valid, .select_candidate .F446]
  exact ⟨hpending, hvalid, hnamed BOOT_SLOT_B slot_b_valid hpending⟩

end

end stm32_vibe.record_invariant
