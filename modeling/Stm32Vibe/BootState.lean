-- The boot state record: its twenty words, its CRC, what makes a record
-- valid, which of two copies is the latest, and the confirmation of the
-- pending slot.
import Stm32Vibe.Board
import Stm32Vibe.Lib.Crc
import Stm32Vibe.Lib.TwoCopyLog

namespace stm32_vibe.boot_state

open little_endian

/-! ## The record -/

def BOOT_STATE_MAGIC : UInt32 := 0x41545342
def BOOT_STATE_VERSION : UInt32 := 1
def BOOT_STATE_NO_SLOT : UInt32 := 0xFFFFFFFF
def BOOT_STATE_MAX_PENDING_ATTEMPTS : UInt32 := 3

def BOOT_SLOT_STATUS_EMPTY : UInt32 := 0
def BOOT_SLOT_STATUS_VALID : UInt32 := 1
def BOOT_SLOT_STATUS_PENDING : UInt32 := 2
def BOOT_SLOT_STATUS_CONFIRMED : UInt32 := 3
def BOOT_SLOT_STATUS_BAD : UInt32 := 4

/-- `boot_state_record_t`. Word 0 of `reserved` is the version of the pending
image and word 1 its CRC. -/
structure BootStateRecord where
  magic : UInt32
  format_version : UInt32
  record_size : UInt32
  generation : UInt32
  active_slot : UInt32
  pending_slot : UInt32
  pending_attempts : UInt32
  slot_a_status : UInt32
  slot_b_status : UInt32
  confirmed_version : UInt32
  confirmed_image_crc32 : UInt32
  record_crc32 : UInt32
  reserved : Vector UInt32 8
deriving DecidableEq, Repr

/-- `sizeof(boot_state_record_t)`. -/
def RECORD_SIZE : UInt32 := 80

/-- The words of a record, in memory order. -/
def BootStateRecord.words (state : BootStateRecord) : List UInt32 :=
  [state.magic, state.format_version, state.record_size, state.generation, state.active_slot,
    state.pending_slot, state.pending_attempts, state.slot_a_status, state.slot_b_status,
    state.confirmed_version, state.confirmed_image_crc32, state.record_crc32] ++
    state.reserved.toList

/-- The record that stands in a row of twenty words. -/
def ofWords (w : Nat → UInt32) : BootStateRecord where
  magic := w 0
  format_version := w 1
  record_size := w 2
  generation := w 3
  active_slot := w 4
  pending_slot := w 5
  pending_attempts := w 6
  slot_a_status := w 7
  slot_b_status := w 8
  confirmed_version := w 9
  confirmed_image_crc32 := w 10
  record_crc32 := w 11
  reserved := Vector.ofFn fun i => w (12 + i)

@[simp] theorem length_words (state : BootStateRecord) : state.words.length = 20 := by
  simp [BootStateRecord.words]

theorem ofWords_words (state : BootStateRecord) :
    ofWords (fun i => state.words.getD i 0) = state := by
  obtain ⟨m, v, z, g, a, p, n, sa, sb, cv, cc, rc, res⟩ := state
  simp only [ofWords, BootStateRecord.words, BootStateRecord.mk.injEq]
  refine ⟨rfl, rfl, rfl, rfl, rfl, rfl, rfl, rfl, rfl, rfl, rfl, rfl, ?_⟩
  apply Vector.ext
  intro i hi
  rw [Vector.getElem_ofFn]
  show ([m, v, z, g, a, p, n, sa, sb, cv, cc, rc] ++ res.toList).getD (12 + i) 0 = res[i]
  rw [List.getD_append_right _ _ _ _ (by simp)]
  simp [List.getD, hi]

/-! ## The CRC of a record -/

/-- The bytes of the record, as the loop of `boot_state_crc32` reads them. -/
def BootStateRecord.bytes (state : BootStateRecord) : Memory := fun index =>
  lane (state.words.getD (index / 4) 0) (index % 4)

/-- `offsetof(boot_state_record_t, record_crc32)`. -/
def RECORD_CRC32_OFFSET : Nat := 44

def boot_state_crc32 (state : BootStateRecord) : UInt32 :=
  reflected_crc.overMemory reflected_crc.CRC32
    (reflected_crc.zeroWindow state.bytes RECORD_CRC32_OFFSET) RECORD_SIZE.toNat

def boot_state_update_crc (state : BootStateRecord) : BootStateRecord :=
  let state := { state with record_crc32 := 0 }
  { state with record_crc32 := boot_state_crc32 state }

/-- Only the CRC word changes. -/
theorem update_crc_eq (state : BootStateRecord) :
    ∃ crc, boot_state_update_crc state = { state with record_crc32 := crc } := ⟨_, rfl⟩

section
variable (state : BootStateRecord)

@[simp] theorem update_crc_magic : (boot_state_update_crc state).magic = state.magic := by
  obtain ⟨crc, h⟩ := update_crc_eq state; rw [h]

@[simp] theorem update_crc_format_version :
    (boot_state_update_crc state).format_version = state.format_version := by
  obtain ⟨crc, h⟩ := update_crc_eq state; rw [h]

@[simp] theorem update_crc_record_size :
    (boot_state_update_crc state).record_size = state.record_size := by
  obtain ⟨crc, h⟩ := update_crc_eq state; rw [h]

@[simp] theorem update_crc_generation :
    (boot_state_update_crc state).generation = state.generation := by
  obtain ⟨crc, h⟩ := update_crc_eq state; rw [h]

@[simp] theorem update_crc_active_slot :
    (boot_state_update_crc state).active_slot = state.active_slot := by
  obtain ⟨crc, h⟩ := update_crc_eq state; rw [h]

@[simp] theorem update_crc_pending_slot :
    (boot_state_update_crc state).pending_slot = state.pending_slot := by
  obtain ⟨crc, h⟩ := update_crc_eq state; rw [h]

@[simp] theorem update_crc_pending_attempts :
    (boot_state_update_crc state).pending_attempts = state.pending_attempts := by
  obtain ⟨crc, h⟩ := update_crc_eq state; rw [h]

@[simp] theorem update_crc_slot_a_status :
    (boot_state_update_crc state).slot_a_status = state.slot_a_status := by
  obtain ⟨crc, h⟩ := update_crc_eq state; rw [h]

@[simp] theorem update_crc_slot_b_status :
    (boot_state_update_crc state).slot_b_status = state.slot_b_status := by
  obtain ⟨crc, h⟩ := update_crc_eq state; rw [h]

@[simp] theorem update_crc_reserved :
    (boot_state_update_crc state).reserved = state.reserved := by
  obtain ⟨crc, h⟩ := update_crc_eq state; rw [h]

end

/-- The CRC of a record does not depend on its CRC word. -/
theorem boot_state_crc32_set (state : BootStateRecord) (x : UInt32) :
    boot_state_crc32 { state with record_crc32 := x } = boot_state_crc32 state := by
  apply reflected_crc.overMemory_zeroWindow_congr
  intro i _ hout
  have hne : 11 ≠ i / 4 := by
    unfold RECORD_CRC32_OFFSET at hout
    omega
  have hset : ({ state with record_crc32 := x } : BootStateRecord).words = state.words.set 11 x :=
    rfl
  simp only [BootStateRecord.bytes, hset, List.getD, List.getElem?_set_ne hne]

/-- An updated record carries its own CRC. -/
theorem update_crc_crc (state : BootStateRecord) :
    (boot_state_update_crc state).record_crc32 = boot_state_crc32 (boot_state_update_crc state) := by
  unfold boot_state_update_crc
  rw [boot_state_crc32_set]

/-! ## The default record -/

def boot_state_init_default : BootStateRecord :=
  boot_state_update_crc
    { magic := BOOT_STATE_MAGIC
      format_version := BOOT_STATE_VERSION
      record_size := RECORD_SIZE
      generation := 0
      active_slot := BOOT_SLOT_A
      pending_slot := BOOT_STATE_NO_SLOT
      pending_attempts := 0
      slot_a_status := BOOT_SLOT_STATUS_EMPTY
      slot_b_status := BOOT_SLOT_STATUS_EMPTY
      confirmed_version := 0
      confirmed_image_crc32 := 0
      record_crc32 := 0
      reserved := Vector.replicate 8 0 }

/-! ## Validation -/

inductive BootStateStatus where
  | Valid
  | BadMagic
  | BadVersion
  | BadSize
  | BadSlot
  | BadCrc
deriving DecidableEq, Repr

def optional_slot_is_valid (slot : UInt32) : Prop :=
  slot = BOOT_STATE_NO_SLOT ∨ slot_is_valid slot

instance (slot : UInt32) : Decidable (optional_slot_is_valid slot) :=
  inferInstanceAs (Decidable (_ ∨ _))

def slot_status_is_valid (status : UInt32) : Prop :=
  status = BOOT_SLOT_STATUS_EMPTY ∨ status = BOOT_SLOT_STATUS_VALID ∨
    status = BOOT_SLOT_STATUS_PENDING ∨ status = BOOT_SLOT_STATUS_CONFIRMED ∨
    status = BOOT_SLOT_STATUS_BAD

instance (status : UInt32) : Decidable (slot_status_is_valid status) :=
  inferInstanceAs (Decidable (_ ∨ _))

theorem status_valid_in_range : slot_status_is_valid BOOT_SLOT_STATUS_VALID := by decide

theorem status_confirmed_in_range : slot_status_is_valid BOOT_SLOT_STATUS_CONFIRMED := by decide

def boot_state_validate (state : BootStateRecord) : BootStateStatus :=
  if state.magic ≠ BOOT_STATE_MAGIC then .BadMagic
  else if state.format_version ≠ BOOT_STATE_VERSION then .BadVersion
  else if state.record_size ≠ RECORD_SIZE then .BadSize
  else if ¬ slot_is_valid state.active_slot ∨ ¬ optional_slot_is_valid state.pending_slot ∨
      ¬ slot_status_is_valid state.slot_a_status ∨ ¬ slot_status_is_valid state.slot_b_status ∨
      state.pending_attempts > BOOT_STATE_MAX_PENDING_ATTEMPTS then .BadSlot
  else if state.record_crc32 ≠ boot_state_crc32 state then .BadCrc
  else .Valid

/-- What `boot_state_validate` asks of every field but the CRC. -/
structure InRange (state : BootStateRecord) : Prop where
  magic : state.magic = BOOT_STATE_MAGIC
  format_version : state.format_version = BOOT_STATE_VERSION
  record_size : state.record_size = RECORD_SIZE
  active_slot : slot_is_valid state.active_slot
  pending_slot : optional_slot_is_valid state.pending_slot
  slot_a_status : slot_status_is_valid state.slot_a_status
  slot_b_status : slot_status_is_valid state.slot_b_status
  pending_attempts : state.pending_attempts ≤ BOOT_STATE_MAX_PENDING_ATTEMPTS

theorem no_attempts_in_range : (0 : UInt32) ≤ BOOT_STATE_MAX_PENDING_ATTEMPTS := by decide

theorem boot_state_validate_iff (state : BootStateRecord) :
    boot_state_validate state = .Valid ↔
      InRange state ∧ state.record_crc32 = boot_state_crc32 state := by
  unfold boot_state_validate
  constructor
  · intro h
    split_ifs at h with h1 h2 h3 h4 h5
    push Not at h1 h2 h3 h4 h5
    obtain ⟨ha, hp, hsa, hsb, hn⟩ := h4
    exact ⟨⟨h1, h2, h3, ha, hp, hsa, hsb, UInt32.not_lt.mp hn⟩, h5⟩
  · rintro ⟨h, hcrc⟩
    have hn : ¬ state.pending_attempts > BOOT_STATE_MAX_PENDING_ATTEMPTS :=
      UInt32.not_lt.mpr h.pending_attempts
    simp [h.magic, h.format_version, h.record_size, h.active_slot, h.pending_slot,
      h.slot_a_status, h.slot_b_status, hn, hcrc]

/-- A record in range is valid after its CRC was updated. -/
theorem update_crc_valid {state : BootStateRecord} (h : InRange state) :
    boot_state_validate (boot_state_update_crc state) = .Valid := by
  rw [boot_state_validate_iff]
  refine ⟨⟨?_, ?_, ?_, ?_, ?_, ?_, ?_, ?_⟩, update_crc_crc state⟩
  · simpa using h.magic
  · simpa using h.format_version
  · simpa using h.record_size
  · simpa using h.active_slot
  · simpa using h.pending_slot
  · simpa using h.slot_a_status
  · simpa using h.slot_b_status
  · simpa using h.pending_attempts

theorem init_default_valid : boot_state_validate boot_state_init_default = .Valid := by
  apply update_crc_valid
  constructor <;> decide

def boot_state_select_latest (first second : BootStateRecord) : Option BootStateRecord :=
  let first_valid := boot_state_validate first = .Valid
  let second_valid := boot_state_validate second = .Valid
  if ¬ first_valid ∧ ¬ second_valid then none
  else if first_valid ∧ (¬ second_valid ∨ first.generation ≥ second.generation) then some first
  else some second

/-! ## The slots of a record -/

def boot_state_status_for_slot (state : BootStateRecord) (slot : UInt32) : UInt32 :=
  if slot = BOOT_SLOT_A then state.slot_a_status
  else if slot = BOOT_SLOT_B then state.slot_b_status
  else BOOT_SLOT_STATUS_BAD

def BOOT_STATE_PENDING_VERSION_WORD : Fin 8 := 0
def BOOT_STATE_PENDING_CRC32_WORD : Fin 8 := 1

theorem pending_version_word_lt : BOOT_STATE_PENDING_VERSION_WORD.val < 8 := by decide
theorem pending_crc32_word_lt : BOOT_STATE_PENDING_CRC32_WORD.val < 8 := by decide

/-- The record and the returned 1 or 0. A record with no pending slot stays. -/
def boot_state_confirm_pending (state : BootStateRecord) : BootStateRecord × Bool :=
  if state.pending_slot = BOOT_STATE_NO_SLOT then (state, false)
  else
    let pending_slot := state.pending_slot
    let promote (slot_a_status slot_b_status : UInt32) : BootStateRecord × Bool :=
      (boot_state_update_crc
        { state with
          slot_a_status, slot_b_status
          active_slot := pending_slot
          confirmed_version := state.reserved[BOOT_STATE_PENDING_VERSION_WORD]
          confirmed_image_crc32 := state.reserved[BOOT_STATE_PENDING_CRC32_WORD]
          reserved := (state.reserved.set BOOT_STATE_PENDING_VERSION_WORD 0).set
            BOOT_STATE_PENDING_CRC32_WORD 0
          pending_slot := BOOT_STATE_NO_SLOT
          pending_attempts := 0
          generation := state.generation + 1 }, true)
    if pending_slot = BOOT_SLOT_A then promote BOOT_SLOT_STATUS_CONFIRMED BOOT_SLOT_STATUS_VALID
    else if pending_slot = BOOT_SLOT_B then promote BOOT_SLOT_STATUS_VALID BOOT_SLOT_STATUS_CONFIRMED
    else (state, false)

/-! ## The policy of a record -/

/-- The fields of a record that the boot policy reads. -/
structure Policy where
  generation : UInt32
  active_slot : UInt32
  pending_slot : UInt32
  pending_attempts : UInt32
  slot_a_status : UInt32
  slot_b_status : UInt32
deriving DecidableEq, Repr

def BootStateRecord.policy (state : BootStateRecord) : Policy where
  generation := state.generation
  active_slot := state.active_slot
  pending_slot := state.pending_slot
  pending_attempts := state.pending_attempts
  slot_a_status := state.slot_a_status
  slot_b_status := state.slot_b_status

section
variable {state other : BootStateRecord} (h : state.policy = other.policy)
include h

theorem active_slot_of_policy : state.active_slot = other.active_slot :=
  congrArg Policy.active_slot h

theorem pending_slot_of_policy : state.pending_slot = other.pending_slot :=
  congrArg Policy.pending_slot h

theorem pending_attempts_of_policy : state.pending_attempts = other.pending_attempts :=
  congrArg Policy.pending_attempts h

theorem slot_a_status_of_policy : state.slot_a_status = other.slot_a_status :=
  congrArg Policy.slot_a_status h

theorem slot_b_status_of_policy : state.slot_b_status = other.slot_b_status :=
  congrArg Policy.slot_b_status h

end

/-- A pending slot has the status pending. -/
def PendingMarked (state : BootStateRecord) : Prop :=
  state.pending_slot ≠ BOOT_STATE_NO_SLOT →
    boot_state_status_for_slot state state.pending_slot = BOOT_SLOT_STATUS_PENDING

end stm32_vibe.boot_state
