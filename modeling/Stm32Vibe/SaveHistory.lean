-- The history of the store: the saves that the firmware makes one after the
-- other, each of them one step of the boot policy after the record in force.
import Stm32Vibe.BootStateStore

namespace stm32_vibe.save_history

open boot_state boot_policy boot_state_store

/-! ## The steps of the record -/

/-- The changes that the firmware saves: a trial boot is counted, the pending
slot is bad or confirmed, or a slot is activated. -/
inductive RecordStep (state : BootStateRecord) : BootStateRecord → Prop
  | count (due : TrialDue state) : RecordStep state (countAttempt state)
  | bad (pending : state.pending_slot ≠ BOOT_STATE_NO_SLOT) :
      RecordStep state (boot_policy_mark_pending_bad state)
  | confirm (pending : state.pending_slot ≠ BOOT_STATE_NO_SLOT) :
      RecordStep state (boot_policy_confirm_pending state)
  | activate (slot version image_crc32 : UInt32) (valid : slot_is_valid slot) :
      RecordStep state (boot_policy_mark_slot_pending state slot version image_crc32)

section
variable {state next : BootStateRecord} (step : RecordStep state next)
include step

theorem recordStep_generation (hi : InRange state) : next.generation = state.generation + 1 := by
  cases step with
  | count due => exact countAttempt_generation state
  | bad pending => exact mark_pending_bad_generation pending
  | confirm pending => exact (confirm_pending_spec (pending_slot_valid hi pending)).2.generation
  | activate slot version image_crc32 valid =>
    exact mark_slot_pending_generation state version image_crc32 valid

/-- The next generation, as a number. -/
theorem recordStep_generationOf (hi : InRange state) :
    generationOf next = (generationOf state + 1) % 2 ^ 32 := by
  unfold generationOf
  rw [recordStep_generation step hi, UInt32.toNat_add]
  rfl

/-- The next generation has the other parity, also when it wraps. -/
theorem recordStep_parity (hi : InRange state) : generationOf next % 2 ≠ generationOf state % 2 := by
  have hgen := recordStep_generationOf step hi
  omega

theorem recordStep_wrapped (hi : InRange state) (hlast : generationOf state = 2 ^ 32 - 1) :
    generationOf next = 0 := by
  rw [recordStep_generationOf step hi, hlast]
  exact Nat.mod_self (2 ^ 32)

theorem recordStep_valid (hi : InRange state) : boot_state_validate next = .Valid := by
  cases step with
  | count due => exact countAttempt_valid hi due
  | bad pending => exact mark_pending_bad_valid pending hi
  | confirm pending => exact confirm_pending_valid hi pending
  | activate slot version image_crc32 valid =>
    exact mark_slot_pending_valid state version image_crc32 valid hi

theorem recordStep_inRange (hi : InRange state) : InRange next :=
  ((boot_state_validate_iff _).mp (recordStep_valid step hi)).1

/-- After a step, a pending slot has the status pending. -/
theorem recordStep_marked (hi : InRange state) : PendingMarked next := by
  cases step with
  | count due =>
    intro _
    rw [countAttempt_pending_slot]
    exact (countAttempt_status state state.pending_slot).trans due.2.2
  | bad pending => exact fun h => absurd (mark_pending_bad_pending_slot state) h
  | confirm pending =>
    exact fun h => absurd (confirm_pending_spec (pending_slot_valid hi pending)).2.pending_slot h
  | activate slot version image_crc32 valid =>
    intro _
    rw [mark_slot_pending_pending_slot state version image_crc32 valid]
    exact mark_slot_pending_status state version image_crc32 valid

end

/-! ## One save -/

section
variable {copies : Copies} {state : BootStateRecord}
  (step : RecordStep (boot_state_store_load copies) state)
  (hroom : generationOf (boot_state_store_load copies) + 1 < 2 ^ 32)
include step hroom

/-- As long as the generation does not wrap, the saved record is the next one. -/
theorem recordStep_next : NextRecord copies state := by
  have hi := load_inRange copies
  refine ⟨recordStep_valid step hi, ?_⟩
  rw [recordStep_generationOf step hi, Nat.mod_eq_of_lt hroom]

theorem load_completed :
    boot_state_store_load (boot_state_store_save_next copies state .Completes).1 = state :=
  load_save_completes (recordStep_next step hroom)

end

/-- However a save ends, the record before it stays in force, or a record with
the policy of the saved one is in force. -/
theorem load_old_or_new {copies : Copies} {state : BootStateRecord}
    (step : RecordStep (boot_state_store_load copies) state) (hg : StoreGood copies)
    (outcome : SaveOutcome) :
    boot_state_store_load (boot_state_store_save_next copies state outcome).1 =
        boot_state_store_load copies ∨
      (boot_state_store_load (boot_state_store_save_next copies state outcome).1).policy =
        state.policy := by
  by_cases hroom : generationOf (boot_state_store_load copies) + 1 < 2 ^ 32
  · exact load_save_interrupted hg.aligned (recordStep_next step hroom).generation outcome
  · have hlast : generationOf (boot_state_store_load copies) = 2 ^ 32 - 1 := by
      have hlt := generation_lt (boot_state_store_load copies)
      omega
    have hzero := recordStep_wrapped step (load_inRange copies) hlast
    exact Or.inl (load_save_wrapped hg.aligned hlast hzero outcome)

/-! ## Saves that complete, at any generation -/

section
variable {copies : Copies} {first second : BootStateRecord}
  (ha : two_copy_log.Aligned generationOf copies.log)
include ha

/-- A completed save is in force, except that of the record after the last generation. -/
theorem load_one_completed (step : RecordStep (boot_state_store_load copies) first) :
    boot_state_store_load (boot_state_store_save_next copies first .Completes).1 =
      if generationOf (boot_state_store_load copies) = 2 ^ 32 - 1 then boot_state_store_load copies
      else first := by
  have hlt := generation_lt (boot_state_store_load copies)
  split
  · rename_i hlast
    exact load_save_wrapped ha hlast (recordStep_wrapped step (load_inRange copies) hlast) .Completes
  · exact load_completed step (by omega)

/-- Of two completed saves the second is in force, except when its generation wraps to 0. -/
theorem load_two_completed (step : RecordStep (boot_state_store_load copies) first)
    (step' : RecordStep first second) :
    boot_state_store_load (boot_state_store_save_next
        (boot_state_store_save_next copies first .Completes).1 second .Completes).1 =
      if generationOf (boot_state_store_load copies) = 2 ^ 32 - 2 then first else second := by
  have hi := load_inRange copies
  have hi' := recordStep_inRange step hi
  have hone := load_one_completed ha step
  have hgen := recordStep_generationOf step hi
  have hlt := generation_lt (boot_state_store_load copies)
  by_cases hlast : generationOf (boot_state_store_load copies) = 2 ^ 32 - 1
  · -- the first record has generation 0 and the second generation 1, one in each copy
    have hfirst := recordStep_wrapped step hi hlast
    have hsecond := recordStep_generationOf step' hi'
    rw [hfirst] at hsecond
    have hfull : 21 ≤ SaveOutcome.Completes.steps := Nat.le_refl 21
    rw [if_neg (by omega), load_eq, log_save, copyRecord_full _ (recordStep_valid step' hi') hfull,
      log_save, copyRecord_full _ (recordStep_valid step hi) hfull]
    unfold two_copy_log.put two_copy_log.latest
    simp [hfirst, hsecond]
  · rw [if_neg hlast] at hone
    have step'' : RecordStep (boot_state_store_load
        (boot_state_store_save_next copies first .Completes).1) second := by
      rw [hone]
      exact step'
    rw [load_one_completed (aligned_save ha first .Completes) step'', hone]
    congr 1
    rw [eq_iff_iff]
    omega

/-- After a completed save, a second one leaves the record before both or one
with the policy of one of the two, however it ends. -/
theorem load_after_two (step : RecordStep (boot_state_store_load copies) first)
    (step' : RecordStep first second) (outcome : SaveOutcome) :
    let after := boot_state_store_load (boot_state_store_save_next
        (boot_state_store_save_next copies first .Completes).1 second outcome).1
    after = boot_state_store_load copies ∨ after.policy = first.policy ∨
      after.policy = second.policy := by
  intro after
  have hi := load_inRange copies
  have hvalid := recordStep_valid step hi
  by_cases h0 : outcome.steps = 0
  · have hsame : after =
        boot_state_store_load (boot_state_store_save_next copies first .Completes).1 := by
      exact congrArg boot_state_store_load (save_unwritten _ second h0)
    rw [hsame, load_one_completed ha step]
    split
    · exact Or.inl rfl
    · exact Or.inr (Or.inl rfl)
  · right
    have hparity := (recordStep_parity step' (recordStep_inRange step hi)).symm
    have hload : after = (two_copy_log.latest generationOf
        (boot_state_store_save_next (boot_state_store_save_next copies first .Completes).1 second
          outcome).1.log).getD boot_state_init_default := load_eq _
    have hfull : 21 ≤ SaveOutcome.Completes.steps := Nat.le_refl 21
    rw [log_save, log_save, copyRecord_full _ hvalid hfull] at hload
    obtain ⟨q, hq, hcase⟩ := @two_copy_log.latest_put_two _ generationOf copies.log
      (generationOf first) (generationOf second) first _ hparity
    rw [hq] at hload
    rw [hload, Option.getD_some]
    rcases hcase with rfl | hx
    · exact Or.inl rfl
    · right
      rcases copyRecord_torn _ second h0 with hnone | ⟨torn, htorn, hp⟩
      · rw [hnone] at hx
        cases hx
      · rw [htorn] at hx
        cases hx
        exact hp

end

/-- A second save that completes is in force after a first one that ended in any
way, as long as its generation does not wrap. -/
theorem load_second_completed {copies : Copies} {first second : BootStateRecord}
    (hg : StoreGood copies) (step : RecordStep (boot_state_store_load copies) first)
    (step' : RecordStep first second) (outcome : SaveOutcome)
    (hroom : generationOf (boot_state_store_load copies) + 2 < 2 ^ 32) :
    boot_state_store_load (boot_state_store_save_next
      (boot_state_store_save_next copies first outcome).1 second .Completes).1 = second := by
  have hi := load_inRange copies
  have hnext := recordStep_next step (by omega)
  have hsecond : generationOf second = generationOf (boot_state_store_load copies) + 2 := by
    rw [recordStep_generationOf step' (recordStep_inRange step hi), hnext.generation,
      Nat.mod_eq_of_lt hroom]
  have hfresh : two_copy_log.Fresh generationOf
      (boot_state_store_save_next copies first outcome).1.log (generationOf second) := by
    intro r hr
    have hload : boot_state_store_load (boot_state_store_save_next copies first outcome).1 = r := by
      rw [load_eq, hr, Option.getD_some]
    rw [← hload, hsecond]
    rcases load_old_or_new step hg outcome with h | h
    · rw [h]
      omega
    · rw [generation_of_policy h, hnext.generation]
      omega
  have hfull : 21 ≤ SaveOutcome.Completes.steps := Nat.le_refl 21
  rw [load_eq, log_save,
    copyRecord_full _ (recordStep_valid step' (recordStep_inRange step hi)) hfull,
    two_copy_log.latest_put generationOf hfresh]
  rfl

/-! ## Saves over any copies -/

/-- The record in force stands in the copy that its generation is written to. -/
def InOwnCopy (copies : Copies) : Prop :=
  two_copy_log.own copies.log (generationOf (boot_state_store_load copies)) =
    some (boot_state_store_load copies)

section
variable {copies : Copies} {state : BootStateRecord}
  (step : RecordStep (boot_state_store_load copies) state)
include step

/-- A record of the next generation is in force once it stands in its copy. -/
theorem load_written (hroom : generationOf (boot_state_store_load copies) + 1 < 2 ^ 32)
    {after : Copies} {written : BootStateRecord}
    (hgen : generationOf written = generationOf state)
    (hlog : after.log = two_copy_log.put copies.log (generationOf state) (some written)) :
    boot_state_store_load after = written ∧ InOwnCopy after := by
  have hfresh : two_copy_log.Fresh generationOf copies.log (generationOf written) := by
    rw [hgen]
    exact fresh_of_next (recordStep_next step hroom).generation
  have hload : boot_state_store_load after = written := by
    rw [load_eq, hlog, ← hgen, two_copy_log.latest_put _ hfresh]
    rfl
  refine ⟨hload, ?_⟩
  unfold InOwnCopy
  rw [hload, hlog, ← hgen, two_copy_log.own_put]

theorem save_completed (hroom : generationOf (boot_state_store_load copies) + 1 < 2 ^ 32) :
    let after := (boot_state_store_save_next copies state .Completes).1
    boot_state_store_load after = state ∧ InOwnCopy after := by
  intro after
  have hfull : 21 ≤ SaveOutcome.Completes.steps := Nat.le_refl 21
  apply load_written step hroom rfl
  unfold after
  rw [log_save, copyRecord_full _ (recordStep_valid step (load_inRange copies)) hfull]

/-- However a save ends, it uses up the generations only with its own record. -/
theorem save_leaves_room (hroom : generationOf (boot_state_store_load copies) + 1 < 2 ^ 32)
    (outcome : SaveOutcome) :
    let after := (boot_state_store_save_next copies state outcome).1
    generationOf (boot_state_store_load after) + 1 < 2 ^ 32 ∨
      (boot_state_store_load after).policy = state.policy ∧ InOwnCopy after := by
  intro after
  have hlog := log_save copies state outcome
  by_cases h0 : outcome.steps = 0
  · left
    unfold after
    rw [save_unwritten _ _ h0]
    exact hroom
  · rcases copyRecord_torn _ state h0 with h | ⟨torn, h, hp⟩
    · -- the copy is not valid, and no other record is newer than the one before
      rw [h] at hlog
      left
      rw [load_eq] at hroom ⊢
      rw [hlog]
      rcases hl : two_copy_log.latest generationOf
          (two_copy_log.put copies.log (generationOf state) none) with _ | r
      · decide
      · obtain ⟨q, hq, hle⟩ := two_copy_log.latest_put_none generationOf hl
        rw [hq, Option.getD_some] at hroom
        rw [Option.getD_some]
        omega
    · right
      rw [h] at hlog
      obtain ⟨hload, hown⟩ := load_written step hroom (generation_of_policy hp) hlog
      refine ⟨?_, hown⟩
      rw [hload, hp]

/-- Beside a record in its own copy, a save leaves it in force or its own record. -/
theorem save_beside (hown : InOwnCopy copies) (outcome : SaveOutcome) :
    let after := (boot_state_store_save_next copies state outcome).1
    InOwnCopy after ∧ (boot_state_store_load after = boot_state_store_load copies ∨
      (boot_state_store_load after).policy = state.policy) := by
  intro after
  have hi := load_inRange copies
  have hlog := log_save copies state outcome
  have hparity := recordStep_parity step hi
  -- an older record or none in the other copy
  have hkeep : ∀ x, after.log = two_copy_log.put copies.log (generationOf state) x →
      (∀ q, x = some q → generationOf q < generationOf (boot_state_store_load copies)) →
      boot_state_store_load after = boot_state_store_load copies ∧ InOwnCopy after := by
    intro x hx hold
    have hload : boot_state_store_load after = boot_state_store_load copies := by
      rw [load_eq after, hx, two_copy_log.latest_beside generationOf hown hparity hold]
      rfl
    refine ⟨hload, ?_⟩
    unfold InOwnCopy
    rw [hload, hx, two_copy_log.own_put_other hparity]
    exact hown
  by_cases h0 : outcome.steps = 0
  · have hsame : after = copies := save_unwritten _ _ h0
    rw [hsame]
    exact ⟨hown, Or.inl rfl⟩
  · rcases copyRecord_torn _ state h0 with h | ⟨torn, h, hp⟩
    · rw [h] at hlog
      obtain ⟨hload, hown'⟩ := hkeep none hlog nofun
      exact ⟨hown', Or.inl hload⟩
    · rw [h] at hlog
      have hgen := generation_of_policy hp
      by_cases hroom : generationOf (boot_state_store_load copies) + 1 < 2 ^ 32
      · obtain ⟨hload, hown'⟩ := load_written step hroom hgen hlog
        refine ⟨hown', Or.inr ?_⟩
        rw [hload, hp]
      · have hlast : generationOf (boot_state_store_load copies) = 2 ^ 32 - 1 := by
          have hlt := generation_lt (boot_state_store_load copies)
          omega
        have hzero := recordStep_wrapped step hi hlast
        obtain ⟨hload, hown'⟩ := hkeep (some torn) hlog (by
          intro q hq
          obtain rfl : torn = q := Option.some.inj hq
          omega)
        exact ⟨hown', Or.inl hload⟩

end

/-! ## The history -/

/-- From the copies at the start, through the saves in order, to the copies at the end. -/
inductive SaveHistory (start : Copies) : List (BootStateRecord × SaveOutcome) → Copies → Prop
  | nil : SaveHistory start [] start
  | save {saves : List (BootStateRecord × SaveOutcome)} {copies : Copies} (state : BootStateRecord)
      (outcome : SaveOutcome) (step : RecordStep (boot_state_store_load copies) state)
      (history : SaveHistory start saves copies) :
      SaveHistory start (saves ++ [(state, outcome)])
        (boot_state_store_save_next copies state outcome).1

/-- The saves of the firmware lead to the copies, from one of the first boot
states and however each save ends. The second record of a boot run follows the
first one in the RAM, also when the save of the first one failed. -/
inductive StoreReachable : Copies → Prop
  | provisioned {copies : Copies} (first : Provisioned copies) : StoreReachable copies
  | save {copies : Copies} (state : BootStateRecord) (outcome : SaveOutcome)
      (step : RecordStep (boot_state_store_load copies) state) (before : StoreReachable copies) :
      StoreReachable (boot_state_store_save_next copies state outcome).1
  | twice {copies : Copies} (first second : BootStateRecord) (outcome outcome' : SaveOutcome)
      (step : RecordStep (boot_state_store_load copies) first) (step' : RecordStep first second)
      (before : StoreReachable copies) :
      StoreReachable (boot_state_store_save_next
        (boot_state_store_save_next copies first outcome).1 second outcome').1

/-- The copies after a row of saves. -/
def replay (copies : Copies) (saves : List (BootStateRecord × SaveOutcome)) : Copies :=
  saves.foldl (fun copies save => (boot_state_store_save_next copies save.1 save.2).1) copies

theorem replay_append (copies : Copies) (saves : List (BootStateRecord × SaveOutcome))
    (state : BootStateRecord) (outcome : SaveOutcome) :
    replay copies (saves ++ [(state, outcome)]) =
      (boot_state_store_save_next (replay copies saves) state outcome).1 := by
  unfold replay
  rw [List.foldl_append]
  rfl

section
variable {start copies : Copies} {saves : List (BootStateRecord × SaveOutcome)}

theorem history_replay (h : SaveHistory start saves copies) : copies = replay start saves := by
  induction h with
  | nil => rfl
  | save state outcome step history ih => rw [replay_append, ← ih]

theorem history_trans {more : List (BootStateRecord × SaveOutcome)} {last : Copies}
    (h : SaveHistory start saves copies) (h' : SaveHistory copies more last) :
    SaveHistory start (saves ++ more) last := by
  induction h' with
  | nil => rw [List.append_nil]; exact h
  | save state outcome step history ih =>
    rw [← List.append_assoc]
    exact .save state outcome step ih

/-- Every save of a history keeps the invariant of the store. -/
theorem history_good (hg : StoreGood start) (h : SaveHistory start saves copies) :
    StoreGood copies := by
  induction h with
  | nil => exact hg
  | save state outcome step history ih =>
    exact storeGood_save ih (recordStep_marked step (load_inRange _)) outcome

theorem StoreReachable.good {copies : Copies} (h : StoreReachable copies) : StoreGood copies := by
  induction h with
  | provisioned first => exact storeGood_provisioned first
  | save state outcome step before ih =>
    exact storeGood_save ih (recordStep_marked step (load_inRange _)) outcome
  | @twice copies first second outcome outcome' step step' before ih =>
    have hi := load_inRange copies
    exact storeGood_save (storeGood_save ih (recordStep_marked step hi) outcome)
      (recordStep_marked step' (recordStep_inRange step hi)) outcome'

/-- The store after an activation that completes. -/
def activateSlot (copies : Copies) (slot version image_crc32 : UInt32) : Copies :=
  (boot_state_store_save_next copies
    (boot_policy_mark_slot_pending (boot_state_store_load copies) slot version image_crc32)
    .Completes).1

theorem activateSlot_reachable {copies : Copies} (h : StoreReachable copies) {slot : UInt32}
    (valid : slot_is_valid slot) (version image_crc32 : UInt32) :
    StoreReachable (activateSlot copies slot version image_crc32) :=
  .save _ .Completes (.activate slot version image_crc32 valid) h

theorem load_activateSlot {copies : Copies} {slot : UInt32} (valid : slot_is_valid slot)
    (version image_crc32 : UInt32)
    (hroom : generationOf (boot_state_store_load copies) + 1 < 2 ^ 32) :
    boot_state_store_load (activateSlot copies slot version image_crc32) =
      boot_policy_mark_slot_pending (boot_state_store_load copies) slot version image_crc32 :=
  load_completed (.activate slot version image_crc32 valid) hroom

/-- Each save raises the generation in force by one at most. -/
theorem history_generation (hg : StoreGood start) (h : SaveHistory start saves copies)
    (hroom : generationOf (boot_state_store_load start) + saves.length < 2 ^ 32) :
    generationOf (boot_state_store_load copies) ≤
      generationOf (boot_state_store_load start) + saves.length := by
  induction h with
  | nil => exact Nat.le_add_right _ _
  | @save saves copies state outcome step history ih =>
    rw [List.length_append, List.length_singleton] at hroom ⊢
    have hle := ih (by omega)
    have hnext := recordStep_next step (by omega)
    rcases load_old_or_new step (history_good hg history) outcome with he | he
    · rw [he]; omega
    · rw [generation_of_policy he, hnext.generation]; omega

/-- What each save of a history leaves: the record before it, or its own
policy, and its own record when it completed. -/
theorem history_atomic (hg : StoreGood start) (h : SaveHistory start saves copies)
    (hroom : generationOf (boot_state_store_load start) + saves.length < 2 ^ 32) (n : Nat)
    {state : BootStateRecord} {outcome : SaveOutcome} (hn : saves[n]? = some (state, outcome)) :
    let before := boot_state_store_load (replay start (saves.take n))
    let after := boot_state_store_load (replay start (saves.take (n + 1)))
    (outcome = .Completes → after = state) ∧
      (after = before ∨ after.policy = state.policy) := by
  induction h with
  | nil => simp at hn
  | @save saves copies last how step history ih =>
    rw [List.length_append, List.length_singleton] at hroom
    by_cases hlt : n < saves.length
    · -- the last save is after this one
      rw [List.getElem?_append_left hlt] at hn
      rw [List.take_append_of_le_length (by omega), List.take_append_of_le_length (by omega)]
      exact ih (by omega) hn
    · -- this is the last save
      rw [List.getElem?_append_right (by omega), List.getElem?_singleton] at hn
      split at hn
      · obtain ⟨rfl, rfl⟩ : last = state ∧ how = outcome := by simpa using hn
        have hle := history_generation hg history (by omega)
        obtain rfl : n = saves.length := by omega
        have hall : (saves ++ [(last, how)]).take (saves.length + 1) = saves ++ [(last, how)] :=
          List.take_of_length_le (by simp)
        rw [hall, replay_append, List.take_left, ← history_replay history]
        refine ⟨fun hc => ?_, load_old_or_new step (history_good hg history) how⟩
        rw [hc]
        exact load_completed step (by omega)
      · cases hn

end

end stm32_vibe.save_history
