-- The two flash copies of the boot state record: one save as a row of flash
-- steps that can stop after any of them, the load of the newest valid copy,
-- and the images that `boot_state_image.py` writes.
import Stm32Vibe.BootPolicy

namespace stm32_vibe.boot_state_store

open boot_state boot_policy

/-! ## The flash of one copy -/

/-- The words of one copy. `boot_state_store.c` reads and writes the first twenty. -/
abbrev Copy := Nat → UInt32

def erasedCopy : Copy := fun _ => 0xFFFFFFFF

/-- A flash step of `write_record`. Each step is atomic. -/
inductive FlashStep where
  | Erase
  | Program (index : Nat) (word : UInt32)

def FlashStep.apply : FlashStep → Copy → Copy
  | .Erase, _ => erasedCopy
  | .Program index word, copy => Function.update copy index word

/-- The steps of `write_record`, in the order of both drivers: the erase of the
page or sector, then one program step for each word of the record. -/
def writeSteps (state : BootStateRecord) : List FlashStep :=
  .Erase :: (List.range 20).map fun index => .Program index (state.words.getD index 0)

/-- How one call of `boot_state_store_save_next` ends. -/
inductive SaveOutcome where
  /-- Every step succeeds and the call returns 1. -/
  | Completes
  /-- The driver gives up after some steps and the call returns 0. -/
  | Fails (steps : Nat)
  /-- Power is lost after some steps and the call never returns. -/
  | PowerLost (steps : Nat)
deriving DecidableEq, Repr

/-- The number of steps of `write_record` that are done. -/
def SaveOutcome.steps : SaveOutcome → Nat
  | .Completes => 21
  | .Fails steps => steps
  | .PowerLost steps => steps

def SaveOutcome.isPowerLost : SaveOutcome → Bool
  | .PowerLost _ => true
  | _ => false

/-- The save completes or is cut by a power loss. -/
def SaveOutcome.Reliable (outcome : SaveOutcome) : Prop := ∀ steps, outcome ≠ .Fails steps

theorem completes_reliable : SaveOutcome.Completes.Reliable := nofun

/-- A reliable save that returns completes. -/
theorem completes_of_returns {outcome : SaveOutcome} (h : outcome.Reliable)
    (hr : outcome.isPowerLost = false) : outcome = .Completes := by
  cases outcome with
  | Completes => rfl
  | Fails steps => exact absurd rfl (h steps)
  | PowerLost steps => cases hr

def write_record (copy : Copy) (state : BootStateRecord) (outcome : SaveOutcome) : Copy × Bool :=
  (((writeSteps state).take outcome.steps).foldl (fun copy step => step.apply copy) copy,
    outcome = .Completes)

/-! ## Load and save -/

/-- The copies at `BOOT_STATE_COPY_A_ADDR` and `BOOT_STATE_COPY_B_ADDR`. -/
structure Copies where
  a : Copy
  b : Copy

def boot_state_store_load (copies : Copies) : BootStateRecord :=
  match boot_state_select_latest (ofWords copies.a) (ofWords copies.b) with
  | some state => state
  | none => boot_state_init_default

/-- The copies after the call, and whether it returned 1. -/
def boot_state_store_save_next (copies : Copies) (state : BootStateRecord)
    (outcome : SaveOutcome) : Copies × Bool :=
  if state.generation &&& 1 = 0 then
    let (a, ok) := write_record copies.a state outcome
    ({ copies with a }, ok)
  else
    let (b, ok) := write_record copies.b state outcome
    ({ copies with b }, ok)

/-- The call returns 1 exactly when every step succeeded. -/
theorem save_next_result (copies : Copies) (state : BootStateRecord) (outcome : SaveOutcome) :
    (boot_state_store_save_next copies state outcome).2 = decide (outcome = .Completes) := by
  unfold boot_state_store_save_next write_record
  split <;> rfl

theorem save_next_completes (copies : Copies) (state : BootStateRecord) :
    (boot_state_store_save_next copies state .Completes).2 = true :=
  save_next_result copies state .Completes

/-! ## The first boot states -/

def erasedCopies : Copies where
  a := erasedCopy
  b := erasedCopy

/-- The record of `boot_state_image.py`. -/
def build_record (active_slot slot_a_status slot_b_status : UInt32) : BootStateRecord :=
  let record : BootStateRecord :=
    { magic := BOOT_STATE_MAGIC
      format_version := BOOT_STATE_VERSION
      record_size := RECORD_SIZE
      generation := 0
      active_slot
      pending_slot := BOOT_STATE_NO_SLOT
      pending_attempts := 0
      slot_a_status, slot_b_status
      confirmed_version := 0
      confirmed_image_crc32 := 0
      record_crc32 := 0
      reserved := Vector.replicate 8 0 }
  { record with
    record_crc32 := reflected_crc.overMemory reflected_crc.CRC32 record.bytes RECORD_SIZE.toNat }

/-- The argument `--mode` of `boot_state_image.py`. -/
inductive ImageMode where
  | Empty
  | ConfirmedA
  | ConfirmedB
deriving DecidableEq, Repr

def recordForMode : ImageMode → BootStateRecord
  | .Empty => build_record BOOT_SLOT_A BOOT_SLOT_STATUS_EMPTY BOOT_SLOT_STATUS_EMPTY
  | .ConfirmedA => build_record BOOT_SLOT_A BOOT_SLOT_STATUS_CONFIRMED BOOT_SLOT_STATUS_EMPTY
  | .ConfirmedB => build_record BOOT_SLOT_B BOOT_SLOT_STATUS_EMPTY BOOT_SLOT_STATUS_CONFIRMED

/-- The region that `image_for_mode` writes: the record in copy A, and `0xff` after it. -/
def image_for_mode (mode : ImageMode) : Copies where
  a := fun index => (recordForMode mode).words.getD index 0xFFFFFFFF
  b := erasedCopy

/-- The boot states that a device starts from. -/
inductive Provisioned : Copies → Prop
  | erased : Provisioned erasedCopies
  | image (mode : ImageMode) : Provisioned (image_for_mode mode)

/-! ## The steps of one write -/

theorem apply_erase (copy : Copy) : FlashStep.Erase.apply copy = erasedCopy := rfl

theorem apply_program (index : Nat) (word : UInt32) (copy : Copy) (i : Nat) :
    (FlashStep.Program index word).apply copy i = if i = index then word else copy i :=
  Function.update_apply copy index word i

theorem programs_apply (state : BootStateRecord) (k : Nat) (hk : k ≤ 20) (copy : Copy) (i : Nat) :
    (((List.range 20).map fun index =>
        FlashStep.Program index (state.words.getD index 0)).take k).foldl
      (fun copy step => step.apply copy) copy i =
      if i < k then state.words.getD i 0 else copy i := by
  induction k with
  | zero => simp
  | succ k ih =>
    have hlen : k < 20 := hk
    rw [List.take_add_one, List.foldl_append]
    have hget : ((List.range 20).map fun index =>
        FlashStep.Program index (state.words.getD index 0))[k]? =
        some (.Program k (state.words.getD k 0)) := by
      simp [hlen]
    rw [hget]
    simp only [Option.toList_some, List.foldl_cons, List.foldl_nil, apply_program]
    rw [ih (by omega)]
    by_cases hik : i = k
    · subst hik; simp
    · simp only [hik, if_false]
      by_cases hlt : i < k
      · simp [hlt, show i < k + 1 by omega]
      · simp [hlt, show ¬ i < k + 1 by omega]

/-- A write that stopped before the erase leaves the copy as it was. -/
theorem write_record_zero (copy : Copy) (state : BootStateRecord) {outcome : SaveOutcome}
    (h : outcome.steps = 0) : (write_record copy state outcome).1 = copy := by
  simp [write_record, h]

/-- The same for the two copies. -/
theorem save_unwritten (copies : Copies) (state : BootStateRecord) {outcome : SaveOutcome}
    (h : outcome.steps = 0) : (boot_state_store_save_next copies state outcome).1 = copies := by
  unfold boot_state_store_save_next
  split <;> simp [write_record_zero _ _ h]

/-- After the erase and `k` program steps, the first `k` words of the record
stand in the copy and the rest is erased. -/
theorem write_record_succ (copy : Copy) (state : BootStateRecord) {outcome : SaveOutcome} {k : Nat}
    (h : outcome.steps = k + 1) (i : Nat) :
    (write_record copy state outcome).1 i =
      if i < min k 20 then state.words.getD i 0 else 0xFFFFFFFF := by
  simp only [write_record, h, writeSteps, List.take_succ_cons, List.foldl_cons, apply_erase]
  have hmin : ∀ l : List FlashStep, l.length = 20 → l.take k = l.take (min k 20) := by
    intro l hl
    rw [← hl, List.take_eq_take_min, hl]
  rw [hmin _ (by simp), programs_apply state (min k 20) (Nat.min_le_right _ _)]
  rfl

/-! ## The two copies as a log -/

/-- The record that a copy holds, when it is valid. -/
def copyRecord (copy : Copy) : Option BootStateRecord :=
  if boot_state_validate (ofWords copy) = .Valid then some (ofWords copy) else none

def generationOf (state : BootStateRecord) : Nat := state.generation.toNat

theorem generation_lt (state : BootStateRecord) : generationOf state < 2 ^ 32 :=
  state.generation.toNat_lt

/-- The even copy of the log is copy A. -/
def Copies.log (copies : Copies) : two_copy_log.Copies BootStateRecord where
  even := copyRecord copies.a
  odd := copyRecord copies.b

theorem select_latest_eq (copies : Copies) :
    boot_state_select_latest (ofWords copies.a) (ofWords copies.b) =
      two_copy_log.latest generationOf copies.log := by
  unfold boot_state_select_latest two_copy_log.latest Copies.log copyRecord generationOf
  by_cases ha : boot_state_validate (ofWords copies.a) = .Valid <;>
    by_cases hb : boot_state_validate (ofWords copies.b) = .Valid <;>
    simp [ha, hb, UInt32.le_iff_toNat_le]

theorem load_eq (copies : Copies) :
    boot_state_store_load copies =
      (two_copy_log.latest generationOf copies.log).getD boot_state_init_default := by
  unfold boot_state_store_load
  rw [select_latest_eq]
  cases two_copy_log.latest generationOf copies.log <;> rfl

theorem copyRecord_valid {copy : Copy} {state : BootStateRecord}
    (h : copyRecord copy = some state) : boot_state_validate state = .Valid := by
  unfold copyRecord at h
  split at h
  · cases h; assumption
  · cases h

/-- The loaded record is valid, from any content of the flash. -/
theorem load_valid (copies : Copies) :
    boot_state_validate (boot_state_store_load copies) = .Valid := by
  rw [load_eq]
  rcases hl : two_copy_log.latest generationOf copies.log with _ | state
  · exact init_default_valid
  · rcases two_copy_log.latest_mem generationOf hl with h | h
    · exact copyRecord_valid h
    · exact copyRecord_valid h

theorem load_inRange (copies : Copies) : InRange (boot_state_store_load copies) :=
  ((boot_state_validate_iff _).mp (load_valid copies)).1

theorem ofWords_congr {v w : Nat → UInt32} (h : ∀ i < 20, v i = w i) : ofWords v = ofWords w := by
  unfold ofWords
  simp only [BootStateRecord.mk.injEq]
  refine ⟨h 0 ?_, h 1 ?_, h 2 ?_, h 3 ?_, h 4 ?_, h 5 ?_, h 6 ?_, h 7 ?_, h 8 ?_, h 9 ?_, h 10 ?_,
    h 11 ?_, ?_⟩ <;> try omega
  apply Vector.ext
  intro i hi
  rw [Vector.getElem_ofFn, Vector.getElem_ofFn]
  exact h _ (by omega)

/-! ## What one write leaves -/

/-- The parity test of `boot_state_store_save_next`. -/
theorem even_iff (state : BootStateRecord) :
    state.generation &&& 1 = 0 ↔ generationOf state % 2 = 0 := by
  unfold generationOf
  rw [← UInt32.toNat_inj, UInt32.toNat_and]
  simp [Nat.and_one_is_mod]

theorem log_save (copies : Copies) (state : BootStateRecord) (outcome : SaveOutcome) :
    (boot_state_store_save_next copies state outcome).1.log =
      two_copy_log.put copies.log (generationOf state)
        (copyRecord (write_record (if state.generation &&& 1 = 0 then copies.a else copies.b)
          state outcome).1) := by
  unfold boot_state_store_save_next two_copy_log.put
  by_cases h : state.generation &&& 1 = 0
  · simp [h, (even_iff state).mp h, Copies.log]
  · simp [h, (even_iff state).not.mp h, Copies.log]

/-- A full write of a valid record leaves the record. -/
theorem copyRecord_full (copy : Copy) {state : BootStateRecord}
    (hv : boot_state_validate state = .Valid) {outcome : SaveOutcome}
    (h : 21 ≤ outcome.steps) : copyRecord (write_record copy state outcome).1 = some state := by
  obtain ⟨k, hk⟩ : ∃ k, outcome.steps = k + 1 := ⟨outcome.steps - 1, by omega⟩
  have hw : ofWords (write_record copy state outcome).1 = state := by
    calc ofWords (write_record copy state outcome).1
        = ofWords fun i => state.words.getD i 0 := by
          apply ofWords_congr
          intro i hi
          rw [write_record_succ copy state hk, if_pos (by omega)]
      _ = state := ofWords_words state
  unfold copyRecord
  rw [hw, if_pos hv]

/-- A write that stopped after the erase leaves a copy that is not valid, or a
copy with the policy fields of the new record. The status of slot B is the last
of these fields: as long as its word is erased, the copy is out of range. -/
theorem copyRecord_torn (copy : Copy) (state : BootStateRecord) {outcome : SaveOutcome}
    (h : outcome.steps ≠ 0) :
    copyRecord (write_record copy state outcome).1 = none ∨
      ∃ torn, copyRecord (write_record copy state outcome).1 = some torn ∧
        torn.policy = state.policy := by
  obtain ⟨k, hk⟩ : ∃ k, outcome.steps = k + 1 := ⟨outcome.steps - 1, by omega⟩
  have hword := write_record_succ copy state hk
  unfold copyRecord
  split
  · rename_i hvalid
    refine Or.inr ⟨_, rfl, ?_⟩
    have hrange := ((boot_state_validate_iff _).mp hvalid).1.slot_b_status
    have hk9 : 9 ≤ min k 20 := by
      by_contra hlt
      have herased : (write_record copy state outcome).1 8 = 0xFFFFFFFF := by
        rw [hword, if_neg (by omega)]
      simp only [ofWords, herased] at hrange
      exact absurd hrange (by decide)
    have hnew : ∀ i < 9, (write_record copy state outcome).1 i = state.words.getD i 0 := by
      intro i hi
      rw [hword, if_pos (by omega)]
    simp only [BootStateRecord.policy, ofWords, hnew 3 (by omega), hnew 4 (by omega),
      hnew 5 (by omega), hnew 6 (by omega), hnew 7 (by omega), hnew 8 (by omega)]
    rfl
  · exact Or.inl rfl

/-! ## The invariant of the store -/

/-- A copy holds only generations of its own parity, and a pending slot of a
valid copy is marked pending. -/
structure StoreGood (copies : Copies) : Prop where
  aligned : two_copy_log.Aligned generationOf copies.log
  marked : ∀ state, copyRecord copies.a = some state ∨ copyRecord copies.b = some state →
    PendingMarked state

/-- The saved record is valid and one generation after the loaded one. -/
structure NextRecord (copies : Copies) (state : BootStateRecord) : Prop where
  valid : boot_state_validate state = .Valid
  generation : generationOf state = generationOf (boot_state_store_load copies) + 1

theorem pendingMarked_congr {state torn : BootStateRecord} (h : torn.policy = state.policy)
    (hm : PendingMarked state) : PendingMarked torn := by
  simp only [BootStateRecord.policy, Policy.mk.injEq] at h
  obtain ⟨-, -, hp, -, ha, hb⟩ := h
  unfold PendingMarked boot_state_status_for_slot at *
  rw [hp, ha, hb]
  exact hm

theorem generation_of_policy {state torn : BootStateRecord} (h : torn.policy = state.policy) :
    generationOf torn = generationOf state := by
  simp only [BootStateRecord.policy, Policy.mk.injEq] at h
  simp only [generationOf, h.1]

/-- What a save leaves in the copy it writes: the old words, nothing valid, or
a record with the policy of the saved one. -/
theorem copyRecord_write (copy : Copy) (state : BootStateRecord) (outcome : SaveOutcome) :
    (write_record copy state outcome).1 = copy ∨
      ∀ torn, copyRecord (write_record copy state outcome).1 = some torn →
        torn.policy = state.policy := by
  by_cases h0 : outcome.steps = 0
  · exact Or.inl (write_record_zero copy state h0)
  · right
    intro torn ht
    rcases copyRecord_torn copy state h0 with h | ⟨t, h, hp⟩
    · rw [h] at ht; cases ht
    · rw [h] at ht; cases ht; exact hp

/-- A save keeps each generation in the copy of its parity. -/
theorem aligned_save {copies : Copies} (h : two_copy_log.Aligned generationOf copies.log)
    (state : BootStateRecord) (outcome : SaveOutcome) :
    two_copy_log.Aligned generationOf
      (boot_state_store_save_next copies state outcome).1.log := by
  rw [log_save]
  by_cases h0 : outcome.steps = 0
  · -- nothing was written
    rw [write_record_zero _ _ h0]
    unfold two_copy_log.put
    by_cases heven : state.generation &&& 1 = 0
    · rw [if_pos heven, if_pos ((even_iff state).mp heven)]
      exact ⟨h.even, h.odd⟩
    · rw [if_neg heven, if_neg ((even_iff state).not.mp heven)]
      exact ⟨h.even, h.odd⟩
  · apply two_copy_log.aligned_put generationOf h
    intro torn ht
    rcases copyRecord_torn _ state h0 with hnone | ⟨t, hsome, hp⟩
    · rw [hnone] at ht
      cases ht
    · rw [hsome] at ht
      cases ht
      exact generation_of_policy hp

/-- Every save keeps the invariant, however it ends. -/
theorem storeGood_save {copies : Copies} (h : StoreGood copies) {state : BootStateRecord}
    (hm : PendingMarked state) (outcome : SaveOutcome) :
    StoreGood (boot_state_store_save_next copies state outcome).1 := by
  have hlog := log_save copies state outcome
  generalize hcopy : (if state.generation &&& 1 = 0 then copies.a else copies.b) = copy at hlog
  have hrest : ∀ torn, copyRecord (write_record copy state outcome).1 = some torn →
      PendingMarked torn := by
    intro torn ht
    rcases copyRecord_write copy state outcome with hw | hw
    · rw [hw, ← hcopy] at ht
      split at ht
      · exact h.marked torn (Or.inl ht)
      · exact h.marked torn (Or.inr ht)
    · exact pendingMarked_congr (hw torn ht) hm
  have heven : (boot_state_store_save_next copies state outcome).1.log.even =
      copyRecord (boot_state_store_save_next copies state outcome).1.a := rfl
  have hodd : (boot_state_store_save_next copies state outcome).1.log.odd =
      copyRecord (boot_state_store_save_next copies state outcome).1.b := rfl
  refine ⟨aligned_save h.aligned state outcome, ?_⟩
  intro torn ht
  rw [← heven, ← hodd, hlog] at ht
  unfold two_copy_log.put at ht
  split at ht
  · rcases ht with ht | ht
    · exact hrest torn ht
    · exact h.marked torn (Or.inr ht)
  · rcases ht with ht | ht
    · exact h.marked torn (Or.inl ht)
    · exact hrest torn ht

theorem pendingMarked_default : PendingMarked boot_state_init_default := by
  intro h
  exact absurd (by simp [boot_state_init_default]) h

theorem load_marked {copies : Copies} (h : StoreGood copies) :
    PendingMarked (boot_state_store_load copies) := by
  rw [load_eq]
  rcases hl : two_copy_log.latest generationOf copies.log with _ | state
  · exact pendingMarked_default
  · exact h.marked state (two_copy_log.latest_mem generationOf hl)

/-- A pending slot of the record in force is due for a trial, or its attempts are used up. -/
theorem due_or_exhausted {copies : Copies} (h : StoreGood copies)
    (hp : (boot_state_store_load copies).pending_slot ≠ BOOT_STATE_NO_SLOT) :
    TrialDue (boot_state_store_load copies) ∨ Exhausted (boot_state_store_load copies) := by
  have hstatus := load_marked h hp
  by_cases hlt : (boot_state_store_load copies).pending_attempts < BOOT_STATE_MAX_PENDING_ATTEMPTS
  · exact Or.inl ⟨hp, hlt, hstatus⟩
  · exact Or.inr ⟨hp, UInt32.not_lt.mp hlt, hstatus⟩

theorem fresh_of_next {copies : Copies} {n : Nat}
    (h : n = generationOf (boot_state_store_load copies) + 1) :
    two_copy_log.Fresh generationOf copies.log n := by
  intro r hr
  rw [load_eq, hr, Option.getD_some] at h
  omega

/-! ## What a load finds after a save -/

/-- A save that wrote the whole record is what the next load finds. -/
theorem load_save {copies : Copies} {state : BootStateRecord} (h : NextRecord copies state)
    {outcome : SaveOutcome} (ho : 21 ≤ outcome.steps) :
    boot_state_store_load (boot_state_store_save_next copies state outcome).1 = state := by
  rw [load_eq, log_save, copyRecord_full _ h.valid ho,
    two_copy_log.latest_put generationOf (fresh_of_next h.generation)]
  rfl

theorem load_save_completes {copies : Copies} {state : BootStateRecord}
    (h : NextRecord copies state) :
    boot_state_store_load (boot_state_store_save_next copies state .Completes).1 = state :=
  load_save h (Nat.le_refl 21)

/-- A save that stopped anywhere leaves the record before it in force, or a
record with the policy of the saved one. -/
theorem load_save_interrupted {copies : Copies}
    (ha : two_copy_log.Aligned generationOf copies.log) {state : BootStateRecord}
    (hn : generationOf state = generationOf (boot_state_store_load copies) + 1)
    (outcome : SaveOutcome) :
    boot_state_store_load (boot_state_store_save_next copies state outcome).1 =
        boot_state_store_load copies ∨
      (boot_state_store_load (boot_state_store_save_next copies state outcome).1).policy =
        state.policy := by
  by_cases h0 : outcome.steps = 0
  · left
    rw [save_unwritten _ _ h0]
  · rw [load_eq, log_save]
    rcases copyRecord_torn _ state h0 with h | ⟨torn, h, hp⟩
    · left
      rw [h, two_copy_log.latest_torn generationOf ha, load_eq]
      intro r hr
      rw [hn, load_eq, hr, Option.getD_some]
    · right
      rw [h, ← generation_of_policy hp, two_copy_log.latest_put generationOf]
      · exact hp
      · rw [generation_of_policy hp]
        exact fresh_of_next hn

/-- After the last generation comes generation 0. A save of it changes nothing
that a load finds: the newest record stays in the other copy. -/
theorem load_save_wrapped {copies : Copies} (ha : two_copy_log.Aligned generationOf copies.log)
    {state : BootStateRecord}
    (hlast : generationOf (boot_state_store_load copies) = 2 ^ 32 - 1)
    (hn : generationOf state = 0) (outcome : SaveOutcome) :
    boot_state_store_load (boot_state_store_save_next copies state outcome).1 =
      boot_state_store_load copies := by
  by_cases h0 : outcome.steps = 0
  · rw [save_unwritten _ _ h0]
  · rw [load_eq] at hlast ⊢
    rw [load_eq, log_save]
    rcases hl : two_copy_log.latest generationOf copies.log with _ | r
    · rw [hl] at hlast
      cases hlast
    · rw [hl, Option.getD_some] at hlast
      rw [two_copy_log.latest_put_older generationOf ha hl (by omega)]
      intro torn ht
      rcases copyRecord_torn _ state h0 with h | ⟨t, h, hp⟩
      · rw [h] at ht
        cases ht
      · obtain rfl : t = torn := Option.some.inj (h.symm.trans ht)
        rw [generation_of_policy hp, hn, hlast]
        decide

/-! ## The first boot states keep the invariant -/

theorem copyRecord_erased : copyRecord erasedCopy = none := by
  unfold copyRecord
  rw [if_neg]
  decide

theorem load_erased : boot_state_store_load erasedCopies = boot_state_init_default := by
  rw [load_eq]
  simp [two_copy_log.latest, Copies.log, erasedCopies, copyRecord_erased]

/-- The CRC of `zlib` over the record with a zero CRC word is the CRC of the firmware. -/
theorem build_record_eq (active_slot slot_a_status slot_b_status : UInt32) :
    build_record active_slot slot_a_status slot_b_status =
      boot_state_update_crc
        { magic := BOOT_STATE_MAGIC
          format_version := BOOT_STATE_VERSION
          record_size := RECORD_SIZE
          generation := 0
          active_slot
          pending_slot := BOOT_STATE_NO_SLOT
          pending_attempts := 0
          slot_a_status, slot_b_status
          confirmed_version := 0
          confirmed_image_crc32 := 0
          record_crc32 := 0
          reserved := Vector.replicate 8 0 } := by
  unfold build_record boot_state_update_crc boot_state_crc32
  dsimp only
  rw [BootStateRecord.mk.injEq]
  refine ⟨rfl, rfl, rfl, rfl, rfl, rfl, rfl, rfl, rfl, rfl, rfl, ?_, rfl⟩
  apply reflected_crc.overMemory_congr
  intro i _
  unfold reflected_crc.zeroWindow RECORD_CRC32_OFFSET
  split
  · rename_i hi
    have h11 : i / 4 = 11 := by omega
    simp only [BootStateRecord.bytes, h11]
    show little_endian.lane 0 (i % 4) = 0
    simp [little_endian.lane]
  · rfl

theorem build_record_valid {active_slot slot_a_status slot_b_status : UInt32}
    (h : slot_is_valid active_slot) (ha : slot_status_is_valid slot_a_status)
    (hb : slot_status_is_valid slot_b_status) :
    boot_state_validate (build_record active_slot slot_a_status slot_b_status) = .Valid := by
  rw [build_record_eq]
  exact update_crc_valid ⟨rfl, rfl, rfl, h, Or.inl rfl, ha, hb, no_attempts_in_range⟩

theorem recordForMode_valid (mode : ImageMode) :
    boot_state_validate (recordForMode mode) = .Valid := by
  cases mode
  · exact build_record_valid slot_a_valid (by decide) (by decide)
  · exact build_record_valid slot_a_valid (by decide) (by decide)
  · exact build_record_valid slot_b_valid (by decide) (by decide)

theorem recordForMode_generation (mode : ImageMode) : generationOf (recordForMode mode) = 0 := by
  cases mode <;> simp [recordForMode, build_record_eq, generationOf]

theorem recordForMode_pending_slot (mode : ImageMode) :
    (recordForMode mode).pending_slot = BOOT_STATE_NO_SLOT := by
  cases mode <;> simp [recordForMode, build_record_eq]

theorem copyRecord_image (mode : ImageMode) :
    copyRecord (image_for_mode mode).a = some (recordForMode mode) := by
  have hw : ofWords (image_for_mode mode).a = recordForMode mode := by
    calc ofWords (image_for_mode mode).a
        = ofWords fun i => (recordForMode mode).words.getD i 0 := by
          apply ofWords_congr
          intro i hi
          have hlen : i < (recordForMode mode).words.length := by rw [length_words]; exact hi
          simp only [image_for_mode, List.getD_eq_getElem _ _ hlen]
      _ = recordForMode mode := ofWords_words _
  unfold copyRecord
  rw [hw, if_pos (recordForMode_valid mode)]

/-- The bootloader loads the record that `boot_state_image.py` wrote. -/
theorem load_image_for_mode (mode : ImageMode) :
    boot_state_store_load (image_for_mode mode) = recordForMode mode := by
  rw [load_eq]
  simp only [two_copy_log.latest, Copies.log, copyRecord_image]
  simp [image_for_mode, copyRecord_erased]

theorem storeGood_provisioned {copies : Copies} (h : Provisioned copies) : StoreGood copies := by
  cases h with
  | erased =>
    refine ⟨⟨?_, ?_⟩, ?_⟩
    · intro r hr; simp [Copies.log, erasedCopies, copyRecord_erased] at hr
    · intro r hr; simp [Copies.log, erasedCopies, copyRecord_erased] at hr
    · intro r hr; simp [erasedCopies, copyRecord_erased] at hr
  | image mode =>
    have hb : copyRecord (image_for_mode mode).b = none := copyRecord_erased
    refine ⟨⟨?_, ?_⟩, ?_⟩
    · intro r hr
      simp only [Copies.log, copyRecord_image, Option.some.injEq] at hr
      rw [← hr, recordForMode_generation]
    · intro r hr
      simp [Copies.log, hb] at hr
    · intro r hr hp
      rw [copyRecord_image, hb] at hr
      rcases hr with hr | hr
      · cases hr; exact absurd (recordForMode_pending_slot mode) hp
      · cases hr

theorem provisioned_generation {copies : Copies} (h : Provisioned copies) :
    generationOf (boot_state_store_load copies) = 0 := by
  cases h with
  | erased => rw [load_erased]; simp [boot_state_init_default, generationOf]
  | image mode => rw [load_image_for_mode, recordForMode_generation]

end stm32_vibe.boot_state_store
