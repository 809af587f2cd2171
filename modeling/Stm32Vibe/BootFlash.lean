-- The flash of the application slots: the two calls that change a slot, what
-- the update relies on, and the drivers of the two boards that keep to it.
import Stm32Vibe.Board

namespace stm32_vibe.boot_flash

open little_endian

/-! ## The calls -/

inductive BootFlashResult where
  | Ok
  | InvalidArgument
  | Error
deriving DecidableEq, Repr

/-- `boot_flash_erase_slot` and `boot_flash_write_slot`, with the slots before
and after the call. -/
structure BootFlash where
  erase_slot (slots : Slots) (slot image_size : UInt32) : BootFlashResult × Slots
  write_slot (slots : Slots) (slot offset : UInt32) (data : List UInt8) : BootFlashResult × Slots

def boot_flash_slot_base (slots : Slots) (slot : UInt32) : Option Image :=
  if slot_is_valid slot then some (slots.image slot) else none

/-- What holds of the calls, also when they fail midway. An erase leaves every
byte as it was or erased. A write may leave anything from its offset on. -/
structure LawfulFlash (flash : BootFlash) : Prop where
  erase_other (slots : Slots) (slot other image_size : UInt32) : slot_is_valid other →
    other ≠ slot → (flash.erase_slot slots slot image_size).2.image other = slots.image other
  erase_bytes (slots : Slots) (slot image_size : UInt32) (i : Nat) :
    (flash.erase_slot slots slot image_size).2.image slot i = slots.image slot i ∨
      (flash.erase_slot slots slot image_size).2.image slot i = 0xFF
  erase_ok (slots : Slots) (slot image_size : UInt32) :
    (flash.erase_slot slots slot image_size).1 = .Ok →
      ∀ i < image_size.toNat, (flash.erase_slot slots slot image_size).2.image slot i = 0xFF
  write_other (slots : Slots) (slot offset other : UInt32) (data : List UInt8) :
    slot_is_valid other → other ≠ slot →
      (flash.write_slot slots slot offset data).2.image other = slots.image other
  write_before (slots : Slots) (slot offset : UInt32) (data : List UInt8) (i : Nat) :
    i < offset.toNat →
      (flash.write_slot slots slot offset data).2.image slot i = slots.image slot i
  write_ok (slots : Slots) (slot offset : UInt32) (data : List UInt8) :
    (flash.write_slot slots slot offset data).1 = .Ok →
      ∀ (k : Nat) (hk : k < data.length),
        (flash.write_slot slots slot offset data).2.image slot (offset.toNat + k) = data[k]

/-- The calls whose arguments are valid succeed. -/
structure SucceedingFlash (board : Board) (flash : BootFlash) : Prop where
  erase (slots : Slots) (slot image_size : UInt32) : slot_is_valid slot → image_size ≠ 0 →
    image_size ≤ APP_SLOT_SIZE board → (flash.erase_slot slots slot image_size).1 = .Ok
  write (slots : Slots) (slot offset : UInt32) (data : List UInt8) : slot_is_valid slot →
    offset &&& 3 = 0 → offset.toNat + data.length ≤ (APP_SLOT_SIZE board).toNat →
      (flash.write_slot slots slot offset data).1 = .Ok

/-! ## The drivers -/

/-- What the flash controller does in one call: whether it unlocks, which page,
sector or word fails if any, and what the failed one holds then. -/
structure FlashFault where
  unlocks : Bool
  failing : Option Nat
  erased : Nat → Bool
  word : UInt32

def BOOT_FLASH_PAGE_SIZE : UInt32 := 256

/-- The bytes of a range are erased where `erased` says so. -/
def eraseRange (image : Image) (start length : Nat) (erased : Nat → Bool) : Image := fun i =>
  if start ≤ i ∧ i < start + length ∧ erased i then 0xFF else image i

/-- The loop over the pages `page`, `page + 1`, .. of the slot on the L152. -/
def erasePages (fault : FlashFault) : Nat → Nat → Image → Bool × Image
  | 0, _, image => (true, image)
  | count + 1, page, image =>
    if fault.failing = some page then (false, eraseRange image (256 * page) 256 fault.erased)
    else erasePages fault count (page + 1) (eraseRange image (256 * page) 256 fun _ => true)

/-- The erase of the one sector of the slot on the F446. -/
def eraseSector (board : Board) (fault : FlashFault) (image : Image) : Bool × Image :=
  if fault.failing = some 0 then
    (false, eraseRange image 0 (APP_SLOT_SIZE board).toNat fault.erased)
  else (true, eraseRange image 0 (APP_SLOT_SIZE board).toNat fun _ => true)

def boot_flash_erase_slot (board : Board) (fault : FlashFault) (slots : Slots)
    (slot image_size : UInt32) : BootFlashResult × Slots :=
  if ¬ slot_is_valid slot then (.InvalidArgument, slots)
  else if image_size = 0 ∨ image_size > APP_SLOT_SIZE board then (.InvalidArgument, slots)
  else if ¬ fault.unlocks then (.Error, slots)
  else
    let (ok, image) := match board with
      | .L152 =>
        let erase_size :=
          (image_size + BOOT_FLASH_PAGE_SIZE - 1) &&& ~~~(BOOT_FLASH_PAGE_SIZE - 1)
        erasePages fault (erase_size / BOOT_FLASH_PAGE_SIZE).toNat 0 (slots.image slot)
      | .F446 => eraseSector board fault (slots.image slot)
    (if ok then .Ok else .Error, slots.set slot image)

/-- Word `index` of the data. Bytes after its end are `0xFF`. -/
def wordAt (data : List UInt8) (index : Nat) : UInt32 :=
  pack (data.getD (4 * index + 0) 0xFF) (data.getD (4 * index + 1) 0xFF)
    (data.getD (4 * index + 2) 0xFF) (data.getD (4 * index + 3) 0xFF)

def storeWord (image : Image) (address : Nat) (word : UInt32) : Image := fun i =>
  if address ≤ i ∧ i < address + 4 then lane word (i - address) else image i

/-- The loop over the words `index`, `index + 1`, .. of the data. -/
def programWords (fault : FlashFault) (data : List UInt8) (offset : Nat) :
    Nat → Nat → Image → Bool × Image
  | 0, _, image => (true, image)
  | count + 1, index, image =>
    if fault.failing = some index then
      (false, storeWord image (offset + 4 * index) fault.word)
    else
      programWords fault data offset count (index + 1)
        (storeWord image (offset + 4 * index) (wordAt data index))

/-- The drivers of both boards make the same checks and the same loop. -/
def boot_flash_write_slot (board : Board) (fault : FlashFault) (slots : Slots)
    (slot offset : UInt32) (data : List UInt8) : BootFlashResult × Slots :=
  if ¬ slot_is_valid slot then (.InvalidArgument, slots)
  else if offset > APP_SLOT_SIZE board ∨ data.length > (APP_SLOT_SIZE board - offset).toNat then
    (.InvalidArgument, slots)
  else if offset &&& 3 ≠ 0 then (.InvalidArgument, slots)
  else if ¬ fault.unlocks then (.Error, slots)
  else
    let (ok, image) :=
      programWords fault data offset.toNat ((data.length + 3) / 4) 0 (slots.image slot)
    (if ok then .Ok else .Error, slots.set slot image)

/-- The driver of a board, with what the controller does in the call. -/
def driver (board : Board) (fault : FlashFault) : BootFlash where
  erase_slot := boot_flash_erase_slot board fault
  write_slot := boot_flash_write_slot board fault

/-! ## The erase loop -/

section
variable (fault : FlashFault)

theorem eraseRange_bytes (image : Image) (start length : Nat) (erased : Nat → Bool) (i : Nat) :
    eraseRange image start length erased i = image i ∨
      eraseRange image start length erased i = 0xFF := by
  unfold eraseRange
  split
  · exact Or.inr rfl
  · exact Or.inl rfl

theorem erasePages_bytes (count page : Nat) (image : Image) (i : Nat) :
    (erasePages fault count page image).2 i = image i ∨
      (erasePages fault count page image).2 i = 0xFF := by
  induction count generalizing page image with
  | zero => exact Or.inl rfl
  | succ count ih =>
    rw [erasePages]
    split
    · exact eraseRange_bytes _ _ _ _ _
    · rcases ih (page + 1) (eraseRange image (256 * page) 256 fun _ => true) with h | h
      · rw [h]
        exact eraseRange_bytes _ _ _ _ _
      · exact Or.inr h

/-- A loop that ends well has erased its pages. -/
theorem erasePages_ok (count page : Nat) (image : Image)
    (hok : (erasePages fault count page image).1 = true) (i : Nat)
    (hi : i < 256 * (page + count)) (hpast : i < 256 * page → image i = 0xFF) :
    (erasePages fault count page image).2 i = 0xFF := by
  induction count generalizing page image with
  | zero => exact hpast hi
  | succ count ih =>
    rw [erasePages] at hok ⊢
    split at hok
    · cases hok
    · rename_i hf
      rw [if_neg hf]
      apply ih _ _ hok (by omega)
      intro hlt
      unfold eraseRange
      split
      · rfl
      · rename_i hout
        simp only [and_true, not_and, Nat.not_lt] at hout
        exact hpast (by omega)

theorem eraseSector_bytes (board : Board) (image : Image) (i : Nat) :
    (eraseSector board fault image).2 i = image i ∨
      (eraseSector board fault image).2 i = 0xFF := by
  unfold eraseSector
  split
  · exact eraseRange_bytes image _ _ _ i
  · dsimp only
    exact eraseRange_bytes image _ _ _ i

theorem eraseSector_ok (board : Board) (image : Image)
    (hok : (eraseSector board fault image).1 = true) (i : Nat)
    (hi : i < (APP_SLOT_SIZE board).toNat) : (eraseSector board fault image).2 i = 0xFF := by
  unfold eraseSector at hok ⊢
  split at hok
  · cases hok
  · rename_i hf
    rw [if_neg hf]
    exact if_pos ⟨Nat.zero_le i, by omega, rfl⟩

end

/-! ## The program loop -/

theorem storeWord_frame (image : Image) (address : Nat) (word : UInt32) {i : Nat}
    (h : i < address ∨ address + 4 ≤ i) : storeWord image address word i = image i :=
  if_neg (by omega)

section
variable (fault : FlashFault) (data : List UInt8) (offset : Nat)

/-- The loop leaves what stands before its words. -/
theorem programWords_before (count index : Nat) (image : Image) {i : Nat}
    (h : i < offset + 4 * index) :
    (programWords fault data offset count index image).2 i = image i := by
  induction count generalizing index image with
  | zero => rfl
  | succ count ih =>
    rw [programWords]
    split
    · exact storeWord_frame _ _ _ (by omega)
    · rw [ih _ _ (by omega), storeWord_frame _ _ _ (by omega)]

/-- A loop that ends well has stored its words. -/
theorem programWords_ok (count index : Nat) (image : Image)
    (hok : (programWords fault data offset count index image).1 = true) (k j : Nat)
    (hk : k < count) (hj : j < 4) :
    (programWords fault data offset count index image).2 (offset + 4 * (index + k) + j) =
      lane (wordAt data (index + k)) j := by
  induction count generalizing index image k with
  | zero => omega
  | succ count ih =>
    rw [programWords] at hok ⊢
    split at hok
    · cases hok
    · rename_i hf
      rw [if_neg hf]
      rcases k with _ | k
      · rw [programWords_before _ _ _ _ _ _ (by omega)]
        unfold storeWord
        rw [if_pos (by omega), Nat.add_zero, Nat.add_sub_cancel_left]
      · have hrest := ih (index + 1) _ hok k (by omega)
        rwa [show index + 1 + k = index + (k + 1) by omega] at hrest

theorem lane_wordAt (k : Nat) (hk : k < data.length) :
    lane (wordAt data (k / 4)) (k % 4) = data[k] := by
  unfold wordAt
  rw [lane_pack (fun j => data.getD (4 * (k / 4) + j) 0xFF) (by omega),
    show 4 * (k / 4) + k % 4 = k by omega]
  exact List.getD_eq_getElem _ _ hk

end

/-! ## The drivers are lawful -/

/-- The size of the erase on the L152 is the size of the image, rounded up to pages. -/
theorem erase_size_toNat {image_size : UInt32}
    (h : image_size.toNat ≤ (APP_SLOT_SIZE .L152).toNat) :
    ((image_size + BOOT_FLASH_PAGE_SIZE - 1) &&& ~~~(BOOT_FLASH_PAGE_SIZE - 1)).toNat =
      (image_size.toNat + 255) / 256 * 256 := by
  have hsize : (APP_SLOT_SIZE .L152).toNat = 0x37000 := by decide
  have hsum : (image_size + BOOT_FLASH_PAGE_SIZE - 1).toNat = image_size.toNat + 255 := by
    have hadd : image_size + BOOT_FLASH_PAGE_SIZE - 1 = image_size + 255 := by
      unfold BOOT_FLASH_PAGE_SIZE
      grind
    rw [hadd, UInt32.toNat_add]
    exact Nat.mod_eq_of_lt (by show image_size.toNat + 255 < _; omega)
  have hmask := clear_low (image_size + BOOT_FLASH_PAGE_SIZE - 1) (BOOT_FLASH_PAGE_SIZE - 1)
    (by decide : ∀ i < 32, (BOOT_FLASH_PAGE_SIZE - 1).toBitVec.getLsbD i = decide (i < 8))
  rw [hmask, hsum]
  rfl

/-- The pages that the L152 erases cover the image. -/
theorem pages_cover {image_size : UInt32}
    (h : image_size.toNat ≤ (APP_SLOT_SIZE .L152).toNat) :
    image_size.toNat ≤ 256 *
      (((image_size + BOOT_FLASH_PAGE_SIZE - 1) &&& ~~~(BOOT_FLASH_PAGE_SIZE - 1)) /
        BOOT_FLASH_PAGE_SIZE).toNat := by
  rw [UInt32.toNat_div, erase_size_toNat h]
  show _ ≤ 256 * ((image_size.toNat + 255) / 256 * 256 / 256)
  omega

section
variable (board : Board) (fault : FlashFault) (slots : Slots) (slot : UInt32)

/-- A call that returns early changes nothing, and the others change one slot. -/
theorem erase_slot_cases (image_size : UInt32) :
    (∃ result, result ≠ .Ok ∧
        boot_flash_erase_slot board fault slots slot image_size = (result, slots)) ∨
      slot_is_valid slot ∧ image_size ≤ APP_SLOT_SIZE board ∧
        ∃ ok image, boot_flash_erase_slot board fault slots slot image_size =
            (if ok then .Ok else .Error, slots.set slot image) ∧
          (∀ i, image i = slots.image slot i ∨ image i = 0xFF) ∧
          (ok = true → ∀ i < image_size.toNat, image i = 0xFF) := by
  unfold boot_flash_erase_slot
  split
  · exact Or.inl ⟨_, by decide, rfl⟩
  · rename_i hs
    split
    · exact Or.inl ⟨_, by decide, rfl⟩
    · rename_i hsize
      split
      · exact Or.inl ⟨_, by decide, rfl⟩
      · right
        simp only [not_or, gt_iff_lt, UInt32.not_lt] at hsize
        refine ⟨Decidable.not_not.mp hs, hsize.2, ?_⟩
        have hle := UInt32.le_iff_toNat_le.mp hsize.2
        cases board with
        | L152 =>
          refine ⟨_, _, rfl, erasePages_bytes fault _ _ _, ?_⟩
          intro hok i hi
          have hpages := pages_cover hle
          exact erasePages_ok fault _ _ _ hok i (by omega) (by omega)
        | F446 =>
          exact ⟨_, _, rfl, eraseSector_bytes fault _ _,
            fun hok i hi => eraseSector_ok fault _ _ hok i (by omega)⟩

theorem write_slot_cases (offset : UInt32) (data : List UInt8) :
    (∃ result, result ≠ .Ok ∧
        boot_flash_write_slot board fault slots slot offset data = (result, slots)) ∨
      slot_is_valid slot ∧
        ∃ ok image, boot_flash_write_slot board fault slots slot offset data =
            (if ok then .Ok else .Error, slots.set slot image) ∧
          (∀ i < offset.toNat, image i = slots.image slot i) ∧
          (ok = true → ∀ (k : Nat) (hk : k < data.length), image (offset.toNat + k) = data[k]) := by
  unfold boot_flash_write_slot
  split
  · exact Or.inl ⟨_, by decide, rfl⟩
  · rename_i hs
    split
    · exact Or.inl ⟨_, by decide, rfl⟩
    · split
      · exact Or.inl ⟨_, by decide, rfl⟩
      · split
        · exact Or.inl ⟨_, by decide, rfl⟩
        · right
          refine ⟨Decidable.not_not.mp hs, _, _, rfl, ?_, ?_⟩
          · intro i hi
            exact programWords_before _ _ _ _ _ _ (by omega)
          · intro hok k hk
            have hword := programWords_ok _ _ _ _ _ _ hok (k / 4) (k % 4) (by omega) (by omega)
            rw [Nat.zero_add, lane_wordAt data k hk] at hword
            rwa [show offset.toNat + 4 * (k / 4) + k % 4 = offset.toNat + k by omega] at hword

end

/-- The drivers of both boards keep to the laws, whatever the controller does. -/
theorem driver_lawful (board : Board) (fault : FlashFault) : LawfulFlash (driver board fault) where
  erase_other slots slot other image_size ho hne := by
    rcases erase_slot_cases board fault slots slot image_size with
      ⟨result, -, he⟩ | ⟨hs, -, ok, image, he, -, -⟩
    · exact congrArg (fun r => r.2.image other) he
    · exact (congrArg (fun r => r.2.image other) he).trans (slots.image_set_ne image hs ho hne)
  erase_bytes slots slot image_size i := by
    rcases erase_slot_cases board fault slots slot image_size with
      ⟨result, -, he⟩ | ⟨hs, -, ok, image, he, hbytes, -⟩
    · exact Or.inl (congrArg (fun r => r.2.image slot i) he)
    · simp only [driver, he, Slots.image_set_self]
      exact hbytes i
  erase_ok slots slot image_size hok i hi := by
    rcases erase_slot_cases board fault slots slot image_size with
      ⟨result, hr, he⟩ | ⟨hs, -, ok, image, he, -, herased⟩
    · exact absurd ((congrArg Prod.fst he).symm.trans hok) hr
    · simp only [driver, he, Slots.image_set_self] at hok ⊢
      refine herased ?_ i hi
      cases ok with
      | true => rfl
      | false => cases hok
  write_other slots slot offset other data ho hne := by
    rcases write_slot_cases board fault slots slot offset data with
      ⟨result, -, he⟩ | ⟨hs, ok, image, he, -, -⟩
    · exact congrArg (fun r => r.2.image other) he
    · exact (congrArg (fun r => r.2.image other) he).trans (slots.image_set_ne image hs ho hne)
  write_before slots slot offset data i hi := by
    rcases write_slot_cases board fault slots slot offset data with
      ⟨result, -, he⟩ | ⟨hs, ok, image, he, hbefore, -⟩
    · exact congrArg (fun r => r.2.image slot i) he
    · simp only [driver, he, Slots.image_set_self]
      exact hbefore i hi
  write_ok slots slot offset data hok k hk := by
    rcases write_slot_cases board fault slots slot offset data with
      ⟨result, hr, he⟩ | ⟨hs, ok, image, he, -, hdata⟩
    · exact absurd ((congrArg Prod.fst he).symm.trans hok) hr
    · simp only [driver, he, Slots.image_set_self] at hok ⊢
      refine hdata ?_ k hk
      cases ok with
      | true => rfl
      | false => cases hok

/-! ## A controller without faults -/

def noFault : FlashFault where
  unlocks := true
  failing := none
  erased := fun _ => false
  word := 0

theorem erasePages_noFault (count page : Nat) (image : Image) :
    (erasePages noFault count page image).1 = true := by
  induction count generalizing page image with
  | zero => rfl
  | succ count ih => exact ih _ _

theorem programWords_noFault (data : List UInt8) (offset count index : Nat) (image : Image) :
    (programWords noFault data offset count index image).1 = true := by
  induction count generalizing index image with
  | zero => rfl
  | succ count ih => exact ih _ _

theorem driver_succeeds (board : Board) : SucceedingFlash board (driver board noFault) where
  erase slots slot image_size hs h0 hle := by
    have hunlocks : noFault.unlocks = true := rfl
    simp only [driver, boot_flash_erase_slot, hs, h0, UInt32.not_lt.mpr hle, hunlocks,
      not_true_eq_false, or_self, if_false]
    cases board with
    | L152 => simp only [erasePages_noFault, if_true]
    | F446 => rfl
  write slots slot offset data hs h3 hle := by
    have hunlocks : noFault.unlocks = true := rfl
    have hoffset : offset ≤ APP_SLOT_SIZE board := UInt32.le_iff_toNat_le.mpr (by omega)
    have hdata : ¬ data.length > (APP_SLOT_SIZE board - offset).toNat := by
      rw [UInt32.toNat_sub_of_le _ _ hoffset]
      omega
    simp only [driver, boot_flash_write_slot, hs, h3, UInt32.not_lt.mpr hoffset, hdata, hunlocks,
      ne_eq, not_true_eq_false, or_self, if_false, programWords_noFault, if_true]

/-! ## A sector that erases and fails -/

def eraseFault : FlashFault where
  unlocks := true
  failing := some 0
  erased := fun _ => true
  word := 0

theorem driver_eraseFault {slots : Slots} {slot image_size : UInt32} (hs : slot_is_valid slot)
    (h0 : image_size ≠ 0) (hle : image_size ≤ APP_SLOT_SIZE .F446) :
    (driver .F446 eraseFault).erase_slot slots slot image_size =
      (.Error, slots.set slot
        (eraseRange (slots.image slot) 0 (APP_SLOT_SIZE .F446).toNat fun _ => true)) := by
  have hunlocks : eraseFault.unlocks = true := rfl
  simp only [driver, boot_flash_erase_slot, hs, h0, UInt32.not_lt.mpr hle, hunlocks,
    not_true_eq_false, or_self, if_false]
  rfl

end stm32_vibe.boot_flash
