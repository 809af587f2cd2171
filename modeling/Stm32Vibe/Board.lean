-- The two boards and the memory maps that the firmware is built with: the
-- flash layout, the end of the RAM, and the 2 KiB at the top of the RAM that
-- the bootloader shares with the application.
import Stm32Vibe.Lib.LittleEndian

namespace stm32_vibe

/-- The boards. `F446` is the build with `STM32F446xx` defined. -/
inductive Board where
  | L152
  | F446
deriving DecidableEq, Repr

/-! ## Flash layout -/

def BOOTLOADER_START_ADDR : UInt32 := 0x08000000

def BOOTLOADER_SIZE : Board → UInt32
  | .F446 => 0x00008000
  | .L152 => 0x00010000

def BOOT_STATE_START_ADDR : Board → UInt32
  | .F446 => 0x08008000
  | .L152 => 0x08010000

def BOOT_STATE_SIZE : Board → UInt32
  | .F446 => 0x00008000
  | .L152 => 0x00001000

def APP_SLOT_SIZE : Board → UInt32
  | .F446 => 0x00020000
  | .L152 => 0x00037000

def APP_SLOT_A_START_ADDR : Board → UInt32
  | .F446 => 0x08020000
  | .L152 => 0x08011000

def APP_SLOT_B_START_ADDR : Board → UInt32
  | .F446 => 0x08040000
  | .L152 => 0x08048000

def APP_SLOT_A_END_ADDR (board : Board) : UInt32 :=
  APP_SLOT_A_START_ADDR board + APP_SLOT_SIZE board

def APP_SLOT_B_END_ADDR (board : Board) : UInt32 :=
  APP_SLOT_B_START_ADDR board + APP_SLOT_SIZE board

/-! ## RAM -/

def RAM_START_ADDR : UInt32 := 0x20000000

def RAM_END_ADDR : Board → UInt32
  | .F446 => 0x20020000
  | .L152 => 0x20014000

def BOOT_RUNTIME_GOT_ADDR : Board → UInt32
  | .F446 => 0x2001F800
  | .L152 => 0x20013800

def BOOT_RUNTIME_VECTOR_ADDR : Board → UInt32
  | .F446 => 0x2001FC00
  | .L152 => 0x20013C00

def BOOT_HANDOFF_ADDR : Board → UInt32
  | .F446 => 0x2001FE00
  | .L152 => 0x20013E00

def BOOT_UPDATE_REQUEST_ADDR : Board → UInt32
  | .F446 => 0x2001FFF0
  | .L152 => 0x20013FF0

def BOOT_RUNTIME_VECTOR_WORDS : UInt32 := 128

def BOOT_RUNTIME_GOT_WORDS : UInt32 := 256

/-! ## Slots -/

def BOOT_SLOT_A : UInt32 := 0

def BOOT_SLOT_B : UInt32 := 1

@[simp] theorem slot_b_ne_slot_a : BOOT_SLOT_B ≠ BOOT_SLOT_A := by decide

@[simp] theorem slot_a_ne_slot_b : BOOT_SLOT_A ≠ BOOT_SLOT_B := by decide

/-- A number that names one of the two slots. -/
def slot_is_valid (slot : UInt32) : Prop := slot = BOOT_SLOT_A ∨ slot = BOOT_SLOT_B

instance (slot : UInt32) : Decidable (slot_is_valid slot) :=
  inferInstanceAs (Decidable (_ ∨ _))

theorem slot_a_valid : slot_is_valid BOOT_SLOT_A := Or.inl rfl

theorem slot_b_valid : slot_is_valid BOOT_SLOT_B := Or.inr rfl

/-- The other slot. -/
def otherSlot (slot : UInt32) : UInt32 := if slot = BOOT_SLOT_B then BOOT_SLOT_A else BOOT_SLOT_B

theorem otherSlot_valid (slot : UInt32) : slot_is_valid (otherSlot slot) := by
  unfold otherSlot
  split
  · exact slot_a_valid
  · exact slot_b_valid

/-- There is no third slot. -/
theorem eq_otherSlot {slot other : UInt32} (h : slot_is_valid slot) (ho : slot_is_valid other)
    (hne : other ≠ slot) : other = otherSlot slot := by
  rcases h with rfl | rfl <;> rcases ho with rfl | rfl
  · exact absurd rfl hne
  · rfl
  · rfl
  · exact absurd rfl hne

/-! ## The contents of the slots -/

/-- What the flash of a slot holds, by offset from the start of the slot. -/
abbrev Image := little_endian.Memory

/-- An erased slot with the bytes at its start. -/
def imageOf (bytes : List UInt8) : Image := fun index => bytes.getD index 0xFF

theorem imageOf_holds (bytes : List UInt8) : little_endian.Holds (imageOf bytes) bytes :=
  fun _ hi => List.getD_eq_getElem _ _ hi

structure Slots where
  a : Image
  b : Image

/-- The bytes that start at the base address of a slot. -/
def Slots.image (slots : Slots) (slot : UInt32) : Image :=
  if slot = BOOT_SLOT_B then slots.b else slots.a

def Slots.set (slots : Slots) (slot : UInt32) (image : Image) : Slots :=
  if slot = BOOT_SLOT_B then { slots with b := image } else { slots with a := image }

@[simp] theorem Slots.image_set_self (slots : Slots) (slot : UInt32) (image : Image) :
    (slots.set slot image).image slot = image := by
  unfold Slots.set Slots.image
  split <;> simp_all

theorem Slots.image_set_ne (slots : Slots) {slot other : UInt32} (image : Image)
    (h : slot_is_valid slot) (ho : slot_is_valid other) (hne : other ≠ slot) :
    (slots.set slot image).image other = slots.image other := by
  rcases h with rfl | rfl <;> rcases ho with rfl | rfl
  · exact absurd rfl hne
  · rfl
  · rfl
  · exact absurd rfl hne

end stm32_vibe
