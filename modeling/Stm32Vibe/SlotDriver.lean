-- The address-level drivers as calls on the contents of the slots: they keep to
-- what the update relies on, and each of their calls is one of the driver that is
-- written over the slots.
import Stm32Vibe.FlashDriver

namespace stm32_vibe.flash_driver

open little_endian region_log boot_flash

/-! ## The driver over the contents of the slots -/

/-- A flash that holds the slots. -/
def flashOf (board : Board) (slots : Slots) : Memory := fun address =>
  if (slotRegion board BOOT_SLOT_A).Has address then
    slots.a (address - (slot_base board BOOT_SLOT_A).toNat)
  else slots.b (address - (slot_base board BOOT_SLOT_B).toNat)

/-- The slots with the bytes that the flash holds. -/
def readSlots (board : Board) (slots : Slots) (flash : Memory) : Slots where
  a := fun i => if i < (APP_SLOT_SIZE board).toNat then
    flash ((slot_base board BOOT_SLOT_A).toNat + i) else slots.a i
  b := fun i => if i < (APP_SLOT_SIZE board).toNat then
    flash ((slot_base board BOOT_SLOT_B).toNat + i) else slots.b i

/-- The driver as calls on the slots. No buffer has 2^32 bytes. -/
def slotDriver (board : Board) (controller : FlashController) : BootFlash where
  erase_slot slots slot image_size :=
    let call := boot_flash_erase_slot board controller slot image_size
    (call.result, readSlots board slots (controller.run (flashOf board slots) call.log))
  write_slot slots slot offset data :=
    if data.length < 2 ^ 32 then
      let call := boot_flash_write_slot board controller slot offset
        (some fun i => data.getD i 0) (UInt32.ofNat data.length)
      (call.result, readSlots board slots (controller.run (flashOf board slots) call.log))
    else (.InvalidArgument, slots)

theorem slots_eq {slots other : Slots} (ha : slots.a = other.a) (hb : slots.b = other.b) :
    slots = other := by
  cases slots
  cases other
  cases ha
  cases hb
  rfl

section
variable (board : Board) (slots : Slots)

theorem readSlots_image (flash : Memory) {slot : UInt32} (hs : slot_is_valid slot) (i : Nat) :
    (readSlots board slots flash).image slot i =
      if i < (APP_SLOT_SIZE board).toNat then flash ((slot_base board slot).toNat + i)
      else slots.image slot i := by
  rcases hs with rfl | rfl <;> rfl

theorem flashOf_at {slot : UInt32} (hs : slot_is_valid slot) {i : Nat}
    (hi : i < (APP_SLOT_SIZE board).toNat) :
    flashOf board slots ((slot_base board slot).toNat + i) = slots.image slot i := by
  unfold flashOf
  rcases hs with rfl | rfl
  · have hin : (slotRegion board BOOT_SLOT_A).Has ((slot_base board BOOT_SLOT_A).toNat + i) :=
      ⟨Nat.le_add_right _ _, Nat.add_lt_add_left hi _⟩
    rw [if_pos hin, Nat.add_sub_cancel_left]
    rfl
  · have hout : ¬ (slotRegion board BOOT_SLOT_A).Has ((slot_base board BOOT_SLOT_B).toNat + i) := by
      rintro ⟨-, hlt⟩
      have hapart : (slotRegion board BOOT_SLOT_A).start + (slotRegion board BOOT_SLOT_A).length ≤
          (slot_base board BOOT_SLOT_B).toNat := by
        cases board <;> decide
      omega
    rw [if_neg hout, Nat.add_sub_cancel_left]
    rfl

/-- A call that starts nothing leaves the slots. -/
theorem readSlots_flashOf : readSlots board slots (flashOf board slots) = slots := by
  have ha : (readSlots board slots (flashOf board slots)).a = slots.a := by
    funext i
    refine (readSlots_image board slots _ slot_a_valid i).trans ?_
    split
    · rename_i hi
      exact flashOf_at board slots slot_a_valid hi
    · rfl
  have hb : (readSlots board slots (flashOf board slots)).b = slots.b := by
    funext i
    refine (readSlots_image board slots _ slot_b_valid i).trans ?_
    split
    · rename_i hi
      exact flashOf_at board slots slot_b_valid hi
    · rfl
  exact slots_eq ha hb

variable (controller : FlashController) {slot : UInt32} {log : List (FlashOp × Bool)}
  (hlog : ∀ entry ∈ log, slot_is_valid slot ∧
    (controller.region entry).Within (slotRegion board slot))
include hlog

/-- The operations of one slot leave the other. -/
theorem readSlots_other {other : UInt32} (ho : slot_is_valid other) (hne : other ≠ slot) :
    (readSlots board slots (controller.run (flashOf board slots) log)).image other =
      slots.image other := by
  funext i
  rw [readSlots_image board slots _ ho]
  split
  · rename_i hi
    rw [← flashOf_at board slots ho hi]
    apply replay_frame
    intro entry hentry hin
    obtain ⟨hs, hwithin⟩ := hlog entry hentry
    obtain rfl := eq_otherSlot hs ho hne
    have hslot := hwithin.has hin
    have hdisjoint := protected_disjoint board hs
      (r := slotRegion board (otherSlot slot)) (by simp [protectedRegions])
    unfold Region.Has at hslot
    simp only [slotRegion] at hdisjoint hslot
    omega
  · rfl

theorem readSlots_invalid (hs : ¬ slot_is_valid slot) :
    readSlots board slots (controller.run (flashOf board slots) log) = slots := by
  have hnil : log = [] := by
    apply List.eq_nil_iff_forall_not_mem.mpr
    intro entry hentry
    exact hs (hlog entry hentry).1
  rw [hnil]
  exact readSlots_flashOf board slots

end

section
variable (board : Board) (controller : FlashController) (slots : Slots) (slot : UInt32)

/-- An erase leaves each byte as it was or erased, also when it fails. -/
theorem erase_keeps (image_size : UInt32) (flash : Memory) (address : Nat) :
    controller.run flash (boot_flash_erase_slot board controller slot image_size).log address =
        flash address ∨
      controller.run flash (boot_flash_erase_slot board controller slot image_size).log address =
        0xFF := by
  apply replay_keeps controller.region controller.content
    (p := fun byte => byte = flash address ∨ byte = 0xFF) (Or.inl rfl)
  intro entry hentry m hm
  have hop : (∃ page, entry.1 = .erase_page page) ∨ ∃ number, entry.1 = .erase_sector number := by
    obtain ⟨-, -, heq⟩ := erase_slot_log board controller slot
      (Or.inl (List.ne_nil_of_mem hentry))
    rw [heq] at hentry
    cases board with
    | L152 =>
      obtain ⟨k, -, -, he⟩ := eraseLoop_mem _ _ _ _ _ (by rfl) hentry
      exact Or.inl ⟨_, he⟩
    | F446 => exact Or.inr ⟨_, waitAndStart_mem _ _ _ hentry⟩
  obtain ⟨op, completes⟩ := entry
  rcases hop with ⟨page, rfl⟩ | ⟨number, rfl⟩
  · simp only [FlashController.content]
    split
    · exact Or.inr rfl
    · exact hm
  · simp only [FlashController.content]
    split
    · exact Or.inr rfl
    · exact hm

theorem ofNat_length {data : List UInt8} (h : data.length < 2 ^ 32) :
    (UInt32.ofNat data.length).toNat = data.length := by
  rw [UInt32.toNat_ofNat', Nat.mod_eq_of_lt h]

/-- What the rest relies on holds of the drivers, whatever the controller does,
where a word that is programmed holds what was programmed. -/
theorem slotDriver_lawful (hthrough : ∀ old word, controller.program old word = word) :
    LawfulFlash (slotDriver board controller) where
  erase_other slots slot other image_size ho hne :=
    readSlots_other board slots controller (fun entry h => erase_confined board controller h) ho hne
  erase_bytes slots slot image_size i := by
    by_cases hs : slot_is_valid slot
    · simp only [slotDriver, readSlots_image board slots _ hs]
      split
      · rename_i hi
        rw [← flashOf_at board slots hs hi]
        exact erase_keeps board controller slot image_size _ _
      · exact Or.inl rfl
    · left
      exact congrArg (fun s => s.image slot i) (readSlots_invalid board slots controller
        (fun entry h => erase_confined board controller h) hs)
  erase_ok slots slot image_size hok i hi := by
    obtain ⟨hs, hle, -⟩ := erase_slot_log board controller slot (Or.inr hok)
    have hsize := UInt32.le_iff_toNat_le.mp hle
    simp only [slotDriver, readSlots_image board slots _ hs]
    rw [if_pos (by omega)]
    exact erase_covers board controller slot _ hok (by omega)
  write_other slots slot offset other data ho hne := by
    simp only [slotDriver]
    split
    · exact readSlots_other board slots controller
        (fun entry h => write_confined board controller h) ho hne
    · rfl
  write_before slots slot offset data i hi := by
    simp only [slotDriver]
    split
    · by_cases hs : slot_is_valid slot
      · rw [readSlots_image board slots _ hs]
        split
        · rename_i hsize
          rw [← flashOf_at board slots hs hsize]
          exact write_frame board controller slot _ (Or.inl hi)
        · rfl
      · exact congrArg (fun s => s.image slot i) (readSlots_invalid board slots controller
          (fun entry h => write_confined board controller h) hs)
    · rfl
  write_ok slots slot offset data hok k hk := by
    simp only [slotDriver] at hok ⊢
    split at hok
    · rename_i hlength
      have hlen := ofNat_length hlength
      obtain ⟨hs, hle, -⟩ := write_slot_log board controller slot (Or.inr hok)
      rw [if_pos hlength]
      dsimp only
      rw [readSlots_image board slots _ hs, if_pos (by omega),
        write_data board controller slot _ hok (fun _ word _ _ => hthrough _ word) (by omega),
        if_pos (by omega)]
      exact List.getD_eq_getElem _ _ hk
    · cases hok

/-- Without faults the calls with valid arguments succeed. -/
theorem slotDriver_succeeds (hunlocks : controller.unlocks = true)
    (hready : ∀ wait, controller.ready wait = true) :
    SucceedingFlash board (slotDriver board controller) where
  erase slots slot image_size hs h0 hle := erase_succeeds board controller hunlocks hready hs h0 hle
  write slots slot offset data hs h3 hle := by
    have hsize : (APP_SLOT_SIZE board).toNat < 2 ^ 32 := UInt32.toNat_lt _
    have hlength : data.length < 2 ^ 32 := by omega
    simp only [slotDriver, if_pos hlength]
    apply write_succeeds board controller hunlocks hready _ hs h3
    rw [ofNat_length hlength]
    exact hle

end

/-! ## The two drivers -/

section
variable (board : Board) (controller : FlashController) (slots : Slots) (slot : UInt32)

/-- The flash has the image in its slot. What lies past the slot is left alone. -/
def InFlash (flash : Memory) (image : Image) : Prop :=
  ∀ i, image i = if i < (APP_SLOT_SIZE board).toNat then
    flash ((slot_base board slot).toNat + i) else slots.image slot i

/-- A call at the addresses is a loop over the image, with the same end. -/
structure Follows (call : FlashCall) (flash : Memory) (out : Bool × Image) : Prop where
  result : call.result = if out.1 then .Ok else .Error
  holds : InFlash board slots slot (controller.run flash call.log) out.2

variable {board controller slots slot}

theorem inFlash_start (hs : slot_is_valid slot) :
    InFlash board slots slot (flashOf board slots) (slots.image slot) := by
  intro i
  split
  · rename_i hi
    exact (flashOf_at board slots hs hi).symm
  · rfl

/-- What the call leaves in the slots is what the loop leaves in the image. -/
theorem Follows.call {call : FlashCall} {out : Bool × Image}
    (h : Follows board controller slots slot call (flashOf board slots) out)
    (hs : slot_is_valid slot)
    (hlog : ∀ entry ∈ call.log, slot_is_valid slot ∧
      (controller.region entry).Within (slotRegion board slot)) :
    (call.result, readSlots board slots (controller.run (flashOf board slots) call.log)) =
      (if out.1 then BootFlashResult.Ok else .Error, slots.set slot out.2) := by
  have himage : (readSlots board slots (controller.run (flashOf board slots) call.log)).image slot =
      out.2 := funext fun i => (readSlots_image board slots _ hs i).trans (h.holds i).symm
  have hother := fun other => @readSlots_other board slots controller slot call.log hlog other
  rw [h.result]
  refine congrArg (Prod.mk _) ?_
  rcases hs with rfl | rfl
  · exact slots_eq himage (hother BOOT_SLOT_B slot_b_valid (by decide))
  · exact slots_eq (hother BOOT_SLOT_A slot_a_valid (by decide)) himage

/-- An operation that completes, and then the rest. -/
theorem Follows.after {op : FlashOp} {rest : FlashCall} {flash : Memory} {out : Bool × Image}
    (h : Follows board controller slots slot rest
      (controller.run flash [(op, true)]) out) :
    Follows board controller slots slot
      ((⟨.Ok, [(op, true)]⟩ : FlashCall).andThen rest) flash out := by
  unfold FlashCall.andThen
  rw [if_pos rfl]
  exact ⟨h.result, h.holds⟩

theorem waitAndStart_cases (controller : FlashController) (wait : Nat) (op : FlashOp) :
    waitAndStart controller wait op = ⟨.Error, []⟩ ∨
      waitAndStart controller wait op = ⟨.Error, [(op, false)]⟩ ∨
        waitAndStart controller wait op = ⟨.Ok, [(op, true)]⟩ := by
  unfold waitAndStart startOp
  cases controller.ready wait
  · exact Or.inl rfl
  · cases controller.ready (wait + 1)
    · exact Or.inr (Or.inl rfl)
    · exact Or.inr (Or.inr rfl)

theorem program_word_cases (board : Board) (controller : FlashController) (wait : Nat)
    (address word : UInt32) :
    program_word board controller wait address word = ⟨.Error, []⟩ ∨
      program_word board controller wait address word =
          ⟨.Error, [(.program address word, false)]⟩ ∨
        program_word board controller wait address word =
          ⟨.Ok, [(.program address word, true)]⟩ := by
  cases board with
  | L152 => exact waitAndStart_cases controller wait _
  | F446 =>
    unfold program_word startOp
    cases controller.ready wait
    · exact Or.inr (Or.inl rfl)
    · exact Or.inr (Or.inr rfl)

/-- An erase of a range of the slot erases the range of the image. -/
theorem InFlash.erase {flash : Memory} {image : Image} {start length : Nat}
    (h : InFlash board slots slot flash image)
    (hfits : start + length ≤ (APP_SLOT_SIZE board).toNat) {entry : FlashOp × Bool}
    (hregion : controller.region entry = ⟨(slot_base board slot).toNat + start, length⟩)
    (hcontent : controller.content entry flash =
      fun i => if entry.2 ∨ controller.cleared i then 0xFF else flash i) :
    InFlash board slots slot (controller.run flash [entry]) (eraseRange image start length
      fun i => entry.2 || controller.cleared ((slot_base board slot).toNat + i)) := by
  intro i
  have hrun : controller.run flash [entry] = perform controller.region controller.content flash
    entry := rfl
  rw [hrun, perform, hregion, hcontent]
  have hhas : Region.Has ⟨(slot_base board slot).toNat + start, length⟩
      ((slot_base board slot).toNat + i) ↔ start ≤ i ∧ i < start + length := by
    unfold Region.Has
    dsimp only
    omega
  unfold eraseRange
  by_cases hi : i < (APP_SLOT_SIZE board).toNat
  · have hsame := h i
    rw [if_pos hi] at hsame ⊢
    by_cases hin : start ≤ i ∧ i < start + length
    · rw [if_pos (hhas.mpr hin), hsame]
      simp [hin]
    · rw [if_neg (fun h => hin ⟨h.1, h.2.1⟩), if_neg (hhas.not.mpr hin), hsame]
  · rw [if_neg (by omega), if_neg hi, h i, if_neg hi]

/-- The loop over the pages, with the page that fails, if any, and what it holds then. -/
theorem eraseLoop_follows (count page wait : Nat) {flash : Memory} {image : Image}
    (h : InFlash board slots slot flash image)
    (hfits : 256 * (page + count) ≤ (APP_SLOT_SIZE board).toNat) :
    ∃ fault : FlashFault, fault.unlocks = true ∧ (∀ failed ∈ fault.failing, page ≤ failed) ∧
      Follows board controller slots slot (eraseLoop controller (slot_base board slot)
        (256 * (page + count)) (256 * page) wait) flash (erasePages fault count page image) := by
  induction count generalizing page wait flash image with
  | zero =>
    refine ⟨noFault, rfl, nofun, ?_⟩
    rw [eraseLoop, if_neg (by omega)]
    exact ⟨rfl, h⟩
  | succ count ih =>
    have hregion : ∀ completes, controller.region
        (.erase_page (slot_base board slot + UInt32.ofNat (256 * page)), completes) =
          ⟨(slot_base board slot).toNat + 256 * page, 256⟩ := by
      intro completes
      rw [FlashController.region, slot_base_add board slot (by omega)]
      rfl
    have herase := fun completes => @InFlash.erase board controller slots slot flash image
      (256 * page) 256 h (by omega) (.erase_page _, completes) (hregion completes) rfl
    rw [eraseLoop, if_pos (by omega), erase_page]
    rcases waitAndStart_cases controller wait
        (.erase_page (slot_base board slot + UInt32.ofNat (256 * page))) with hcall | hcall | hcall
    · -- the wait before the page fails
      refine ⟨⟨true, some page, fun _ => false, 0⟩, rfl, by simp, ?_⟩
      rw [hcall, erasePages, if_pos rfl]
      refine ⟨rfl, ?_⟩
      have hsame : eraseRange image (256 * page) 256 (fun _ => false) = image := by
        funext i
        exact if_neg (by simp)
      rw [hsame]
      exact h
    · refine ⟨⟨true, some page,
        fun i => controller.cleared ((slot_base board slot).toNat + i), 0⟩, rfl, by simp, ?_⟩
      rw [hcall, erasePages, if_pos rfl]
      exact ⟨rfl, herase false⟩
    · obtain ⟨fault, hunlocks, hfailing, hrest⟩ :=
        ih (page + 1) (wait + 2) (herase true) (by omega)
      refine ⟨fault, hunlocks, fun failed hmem => Nat.le_of_succ_le (hfailing failed hmem), ?_⟩
      have hnot : fault.failing ≠ some page := fun hsome => absurd (hfailing page hsome) (by omega)
      rw [hcall, erasePages, if_neg hnot]
      rw [show page + 1 + count = page + (count + 1) by omega,
        show 256 * (page + 1) = 256 * page + BOOT_FLASH_PAGE_SIZE.toNat by
          show 256 * (page + 1) = 256 * page + 256
          omega] at hrest
      exact hrest.after

/-- The word that is made byte by byte is the word of the data. -/
theorem chunkWord_eq (data : List UInt8) (k : Nat) :
    chunkWord (fun i => data.getD i 0) (4 * k) (min (data.length - 4 * k) 4) = wordAt data k := by
  have hlane : ∀ j < 4, lane (chunkWord (fun i => data.getD i 0) (4 * k)
      (min (data.length - 4 * k) 4)) j = data.getD (4 * k + j) 0xFF := by
    intro j hj
    rw [lane_chunkWord _ _ (Nat.min_le_right _ _) hj]
    by_cases hin : 4 * k + j < data.length
    · rw [if_pos (by omega), List.getD_eq_getElem _ _ hin, List.getD_eq_getElem _ _ hin]
    · rw [if_neg (by omega), List.getD_eq_default _ _ (Nat.le_of_not_lt hin)]
  rw [← pack_lanes (chunkWord _ _ _), wordAt, hlane 0 (by omega), hlane 1 (by omega),
    hlane 2 (by omega), hlane 3 (by omega)]

theorem storeWord_same (image : Image) (address : Nat) :
    storeWord image address (readWord image address) = image := by
  funext i
  unfold storeWord
  split
  · rename_i hi
    have hlane := @lane_pack (fun j => image (address + j)) (i - address) (by omega)
    rw [show address + (i - address) = i by omega] at hlane
    exact hlane
  · rfl

/-- A word that is programmed into the slot is stored in the image. -/
theorem InFlash.program {flash : Memory} {image : Image} {start : Nat}
    (h : InFlash board slots slot flash image) (hfits : start + 4 ≤ (APP_SLOT_SIZE board).toNat)
    {address : UInt32} (haddress : address.toNat = (slot_base board slot).toNat + start)
    (word : UInt32) (completes : Bool) :
    InFlash board slots slot (controller.run flash [(.program address word, completes)])
      (storeWord image start (if completes then
        controller.program (readWord flash address.toNat) word else controller.left)) := by
  intro i
  have hrun : controller.run flash [(.program address word, completes)] =
    perform controller.region controller.content flash (.program address word, completes) := rfl
  rw [hrun, perform, FlashController.region, FlashController.content, haddress]
  dsimp only
  have hhas : Region.Has ⟨(slot_base board slot).toNat + start, 4⟩
      ((slot_base board slot).toNat + i) ↔ start ≤ i ∧ i < start + 4 := by
    unfold Region.Has
    dsimp only
    omega
  unfold storeWord
  by_cases hi : i < (APP_SLOT_SIZE board).toNat
  · have hsame := h i
    rw [if_pos hi] at hsame ⊢
    by_cases hin : start ≤ i ∧ i < start + 4
    · rw [if_pos (hhas.mpr hin), if_pos hin,
        show (slot_base board slot).toNat + i - ((slot_base board slot).toNat + start) = i - start by
          omega]
    · rw [if_neg hin, if_neg (hhas.not.mpr hin), hsame]
  · rw [if_neg (by omega), if_neg hi, h i, if_neg hi]

/-- The loop over the words, with the word that fails, if any, and what it holds then. -/
theorem writeLoop_follows (hthrough : ∀ old word, controller.program old word = word)
    {offset : UInt32} {data : List UInt8} (count k wait : Nat) {flash : Memory} {image : Image}
    (h : InFlash board slots slot flash image) (hcount : k + count = (data.length + 3) / 4)
    (hfits : offset.toNat + 4 * (k + count) ≤ (APP_SLOT_SIZE board).toNat) :
    ∃ fault : FlashFault, fault.unlocks = true ∧ (∀ failed ∈ fault.failing, k ≤ failed) ∧
      Follows board controller slots slot (writeLoop board controller
        (slot_base board slot + offset) (fun i => data.getD i 0) data.length (4 * k) wait) flash
          (programWords fault data offset.toNat count k image) := by
  induction count generalizing k wait flash image with
  | zero =>
    refine ⟨noFault, rfl, nofun, ?_⟩
    rw [writeLoop, if_neg (by omega)]
    exact ⟨rfl, h⟩
  | succ count ih =>
    have haddress : (slot_base board slot + offset + UInt32.ofNat (4 * k)).toNat =
        (slot_base board slot).toNat + (offset.toNat + 4 * k) := by
      rw [write_address_add board slot (by omega), write_address board slot (by omega),
        Nat.add_assoc]
    have hword := @InFlash.program board controller slots slot flash image (offset.toNat + 4 * k) h
      (by omega) _ haddress (wordAt data k)
    rw [writeLoop, if_pos (by omega), chunkWord_eq]
    rcases program_word_cases board controller wait
        (slot_base board slot + offset + UInt32.ofNat (4 * k)) (wordAt data k)
      with hcall | hcall | hcall
    · -- the wait before the word fails
      refine ⟨⟨true, some k, fun _ => false, readWord image (offset.toNat + 4 * k)⟩, rfl,
        by simp, ?_⟩
      rw [hcall, programWords, if_pos rfl, storeWord_same]
      exact ⟨rfl, h⟩
    · refine ⟨⟨true, some k, fun _ => false, controller.left⟩, rfl, by simp, ?_⟩
      rw [hcall, programWords, if_pos rfl]
      exact ⟨rfl, hword false⟩
    · have hnext := hword true
      rw [if_pos rfl, hthrough] at hnext
      obtain ⟨fault, hunlocks, hfailing, hrest⟩ :=
        ih (k + 1) (wait + waitsPerWord board) hnext (by omega) (by omega)
      refine ⟨fault, hunlocks, fun failed hmem => Nat.le_of_succ_le (hfailing failed hmem), ?_⟩
      have hnot : fault.failing ≠ some k := fun hsome => absurd (hfailing k hsome) (by omega)
      rw [hcall, programWords, if_neg hnot]
      rw [show 4 * (k + 1) = 4 * k + 4 by omega] at hrest
      exact hrest.after

/-- The pages of an image on the L152. -/
theorem pages_follow {slots : Slots} {slot image_size : UInt32}
    (hle : image_size.toNat ≤ (APP_SLOT_SIZE .L152).toNat) {flash : Memory} {image : Image}
    (h : InFlash .L152 slots slot flash image) :
    let erase_size := (image_size + BOOT_FLASH_PAGE_SIZE - 1) &&& ~~~(BOOT_FLASH_PAGE_SIZE - 1)
    ∃ fault : FlashFault, fault.unlocks = true ∧
      Follows .L152 controller slots slot
        (eraseLoop controller (slot_base .L152 slot) erase_size.toNat 0 0) flash
        (erasePages fault (erase_size / BOOT_FLASH_PAGE_SIZE).toNat 0 image) := by
  intro erase_size
  have hsize : erase_size.toNat = _ := erase_size_toNat hle
  have hpages := slot_size_pages .L152
  have hcount : (erase_size / BOOT_FLASH_PAGE_SIZE).toNat = (image_size.toNat + 255) / 256 := by
    rw [UInt32.toNat_div, hsize]
    exact Nat.mul_div_cancel _ (by decide)
  obtain ⟨fault, hunlocks, -, hfollows⟩ := @eraseLoop_follows .L152 controller slots slot
    ((image_size.toNat + 255) / 256) 0 0 flash image h (by omega)
  refine ⟨fault, hunlocks, ?_⟩
  rw [hcount, hsize]
  rw [Nat.zero_add, Nat.mul_comm] at hfollows
  exact hfollows

/-- The erase of the one sector. -/
theorem sector_follows {slots : Slots} {slot : UInt32} (hs : slot_is_valid slot) {flash : Memory}
    {image : Image} (h : InFlash .F446 slots slot flash image) :
    ∃ fault : FlashFault, fault.unlocks = true ∧
      Follows .F446 controller slots slot
        (waitAndStart controller 0 (.erase_sector (slot_sector slot))) flash
        (eraseSector .F446 fault image) := by
  have hregion : ∀ completes, controller.region (.erase_sector (slot_sector slot), completes) =
      ⟨(slot_base .F446 slot).toNat + 0, (APP_SLOT_SIZE .F446).toNat⟩ :=
    fun _ => controller.sector_slots slot hs
  have herase := fun completes => @InFlash.erase .F446 controller slots slot flash image 0 _ h
    (Nat.le_of_eq (Nat.zero_add _)) (.erase_sector _, completes) (hregion completes) rfl
  rcases waitAndStart_cases controller 0 (.erase_sector (slot_sector slot))
    with hcall | hcall | hcall
  · refine ⟨⟨true, some 0, fun _ => false, 0⟩, rfl, ?_⟩
    rw [hcall, eraseSector, if_pos rfl]
    have hsame : eraseRange image 0 (APP_SLOT_SIZE .F446).toNat (fun _ => false) = image :=
      funext fun i => if_neg (by simp)
    rw [hsame]
    exact ⟨rfl, h⟩
  · refine ⟨⟨true, some 0, fun i => controller.cleared ((slot_base .F446 slot).toNat + i), 0⟩,
      rfl, ?_⟩
    rw [hcall, eraseSector, if_pos rfl]
    exact ⟨rfl, herase false⟩
  · refine ⟨noFault, rfl, ?_⟩
    rw [hcall, eraseSector, if_neg nofun]
    exact ⟨rfl, herase true⟩

end

section
variable (board : Board) (controller : FlashController) (slots : Slots) (slot : UInt32)

/-- A call that returns before its first operation. -/
theorem early_call {call : FlashCall} {result : BootFlashResult} (h : call = ⟨result, []⟩) :
    (call.result, readSlots board slots (controller.run (flashOf board slots) call.log)) =
      (result, slots) := by
  rw [h]
  exact congrArg (Prod.mk result) (readSlots_flashOf board slots)

/-- An erase at the addresses is an erase of the driver over the slots, with some fault. -/
theorem slotDriver_erases (image_size : UInt32) : ∃ fault,
    (slotDriver board controller).erase_slot slots slot image_size =
      (driver board fault).erase_slot slots slot image_size := by
  have hlog := fun entry => @erase_confined board controller slot image_size entry
  show ∃ fault, (_, readSlots board slots (controller.run (flashOf board slots) _)) =
    boot_flash.boot_flash_erase_slot board fault slots slot image_size
  generalize hcall : boot_flash_erase_slot board controller slot image_size = call at hlog ⊢
  unfold boot_flash_erase_slot at hcall
  unfold boot_flash.boot_flash_erase_slot
  by_cases hs : slot_is_valid slot
  · simp only [hs, not_true_eq_false, if_false] at hcall ⊢
    by_cases hsize : image_size = 0 ∨ image_size > APP_SLOT_SIZE board
    · simp only [if_pos hsize] at hcall ⊢
      exact ⟨noFault, early_call board controller slots hcall.symm⟩
    · simp only [if_neg hsize] at hcall ⊢
      by_cases hunlocks : controller.unlocks = true
      · simp only [hunlocks, not_true_eq_false, if_false] at hcall
        have hle : image_size.toNat ≤ (APP_SLOT_SIZE board).toNat :=
          UInt32.le_iff_toNat_le.mp (UInt32.not_lt.mp (not_or.mp hsize).2)
        have hstart := @inFlash_start board slots slot hs
        cases board with
        | L152 =>
          obtain ⟨fault, hfault, hfollows⟩ := @pages_follow controller slots slot _ hle _ _ hstart
          rw [← hcall] at hlog ⊢
          refine ⟨fault, ?_⟩
          simp only [hfault, not_true_eq_false, if_false]
          exact hfollows.call hs hlog
        | F446 =>
          obtain ⟨fault, hfault, hfollows⟩ := @sector_follows controller slots slot hs _ _ hstart
          rw [← hcall] at hlog ⊢
          refine ⟨fault, ?_⟩
          simp only [hfault, not_true_eq_false, if_false]
          exact hfollows.call hs hlog
      · simp only [hunlocks] at hcall
        refine ⟨{ noFault with unlocks := false }, ?_⟩
        exact early_call board controller slots hcall.symm
  · simp only [hs, not_false_eq_true, if_true] at hcall ⊢
    exact ⟨noFault, early_call board controller slots hcall.symm⟩

/-- A write at the addresses is a write of the driver over the slots, with some fault,
where a word that is programmed holds what was programmed. -/
theorem slotDriver_writes (hthrough : ∀ old word, controller.program old word = word)
    (offset : UInt32) (data : List UInt8) : ∃ fault,
      (slotDriver board controller).write_slot slots slot offset data =
        (driver board fault).write_slot slots slot offset data := by
  by_cases hlength : data.length < 2 ^ 32
  · have hlog := fun entry => @write_confined board controller slot offset
      (UInt32.ofNat data.length) (some fun i => data.getD i 0) entry
    have hlen := ofNat_length hlength
    unfold slotDriver
    dsimp only
    rw [if_pos hlength]
    generalize hcall : boot_flash_write_slot board controller slot offset
      (some fun i => data.getD i 0) (UInt32.ofNat data.length) = call at hlog ⊢
    show ∃ fault, _ = boot_flash.boot_flash_write_slot board fault slots slot offset data
    have hrange : (UInt32.ofNat data.length ≠ 0 ∧ (some fun i => data.getD i 0) = none ∨
        offset > APP_SLOT_SIZE board ∨ UInt32.ofNat data.length > APP_SLOT_SIZE board - offset) ↔
        offset > APP_SLOT_SIZE board ∨ data.length > (APP_SLOT_SIZE board - offset).toNat := by
      have hmore : UInt32.ofNat data.length > APP_SLOT_SIZE board - offset ↔
          data.length > (APP_SLOT_SIZE board - offset).toNat := by
        rw [gt_iff_lt, UInt32.lt_iff_toNat_lt, hlen]
      rw [hmore]
      simp
    unfold boot_flash_write_slot at hcall
    unfold boot_flash.boot_flash_write_slot
    simp only [hrange] at hcall
    by_cases hs : slot_is_valid slot
    · simp only [hs, not_true_eq_false, if_false] at hcall ⊢
      by_cases hlong : offset > APP_SLOT_SIZE board ∨
          data.length > (APP_SLOT_SIZE board - offset).toNat
      · simp only [if_pos hlong] at hcall ⊢
        exact ⟨noFault, early_call board controller slots hcall.symm⟩
      · simp only [if_neg hlong] at hcall ⊢
        by_cases haligned : offset &&& 3 ≠ 0
        · simp only [if_pos haligned] at hcall ⊢
          exact ⟨noFault, early_call board controller slots hcall.symm⟩
        · simp only [if_neg haligned] at hcall ⊢
          by_cases hunlocks : controller.unlocks = true
          · simp only [hunlocks, not_true_eq_false, if_false] at hcall
            obtain ⟨hoffset, hfits⟩ := not_or.mp hlong
            rw [gt_iff_lt, UInt32.not_lt] at hoffset
            rw [UInt32.toNat_sub_of_le _ _ hoffset] at hfits
            have hstart := UInt32.le_iff_toNat_le.mp hoffset
            have hword := (aligned_iff offset).mp (not_not.mp haligned)
            have hpages := slot_size_pages board
            obtain ⟨fault, hfault, -, hfollows⟩ := @writeLoop_follows board controller slots slot
              hthrough offset data ((data.length + 3) / 4) 0 0 _ _ (inFlash_start hs)
              (Nat.zero_add _) (by omega)
            refine ⟨fault, ?_⟩
            rw [← hcall] at hlog ⊢
            simp only [hfault, not_true_eq_false, if_false]
            rw [hlen] at hlog ⊢
            exact hfollows.call hs hlog
          · simp only [hunlocks] at hcall
            refine ⟨{ noFault with unlocks := false }, ?_⟩
            exact early_call board controller slots hcall.symm
    · simp only [hs, not_false_eq_true, if_true] at hcall ⊢
      exact ⟨noFault, early_call board controller slots hcall.symm⟩
  · have hlong : data.length > (APP_SLOT_SIZE board - offset).toNat :=
      Nat.lt_of_lt_of_le (UInt32.toNat_lt _) (Nat.le_of_not_lt hlength)
    refine ⟨noFault, ?_⟩
    unfold slotDriver
    show (if data.length < 2 ^ 32 then _ else (BootFlashResult.InvalidArgument, slots)) =
      boot_flash.boot_flash_write_slot board noFault slots slot offset data
    rw [if_neg hlength, boot_flash.boot_flash_write_slot, if_pos (Or.inr hlong), ite_self]

end

end stm32_vibe.flash_driver
