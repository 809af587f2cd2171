-- The flash drivers of the two boards with the addresses that they erase and
-- program: no call leaves its slot, and a call that succeeds is complete.
import Stm32Vibe.BootFlash
import Stm32Vibe.Lib.RegionLog

namespace stm32_vibe.flash_driver

open little_endian region_log boot_flash

/-! ## The flash controller -/

def slot_base (board : Board) (slot : UInt32) : UInt32 :=
  if slot = BOOT_SLOT_A then APP_SLOT_A_START_ADDR board else APP_SLOT_B_START_ADDR board

def slot_sector (slot : UInt32) : UInt32 := if slot = BOOT_SLOT_A then 5 else 6

/-- The addresses of a slot. -/
def slotRegion (board : Board) (slot : UInt32) : Region :=
  ⟨(slot_base board slot).toNat, (APP_SLOT_SIZE board).toNat⟩

/-- What a driver makes the controller do. -/
inductive FlashOp where
  | erase_page (address : UInt32)
  | erase_sector (sector : UInt32)
  | program (address word : UInt32)
deriving DecidableEq, Repr

/-- What the controller does in one call: whether it unlocks, what each
`wait_ready` finds, where the sectors are, what a word holds after another is
programmed over it, and what an operation that fails leaves. -/
structure FlashController where
  unlocks : Bool
  ready : Nat → Bool
  sector : UInt32 → Region
  sector_slots : ∀ slot, slot_is_valid slot →
    sector (slot_sector slot) = slotRegion .F446 slot
  program : UInt32 → UInt32 → UInt32
  program_erased : ∀ word, program 0xFFFFFFFF word = word
  cleared : Nat → Bool
  left : UInt32

namespace FlashController
variable (controller : FlashController)

def region : FlashOp × Bool → Region
  | (.erase_page address, _) => ⟨address.toNat, BOOT_FLASH_PAGE_SIZE.toNat⟩
  | (.erase_sector number, _) => controller.sector number
  | (.program address _, _) => ⟨address.toNat, 4⟩

/-- What stands in the range of an operation once it ended, well or not. -/
def content (entry : FlashOp × Bool) (flash : Memory) : Memory :=
  match entry with
  | (.program address word, completes) => fun i =>
    let stored := controller.program (readWord flash address.toNat) word
    lane (if completes then stored else controller.left) (i - address.toNat)
  | (_, completes) => fun i => if completes ∨ controller.cleared i then 0xFF else flash i

/-- The flash after the operations of a call. -/
def run (flash : Memory) (log : List (FlashOp × Bool)) : Memory :=
  replay controller.region controller.content flash log

end FlashController

/-! ## The drivers -/

/-- The result of a call, with the operations that it started and whether each
one completed. -/
structure FlashCall where
  result : BootFlashResult
  log : List (FlashOp × Bool)

/-- A call that goes on only after success. -/
def FlashCall.andThen (first next : FlashCall) : FlashCall :=
  if first.result = .Ok then ⟨next.result, first.log ++ next.log⟩ else first

/-- An operation, and the `wait_ready` after it. -/
def startOp (controller : FlashController) (wait : Nat) (op : FlashOp) : FlashCall :=
  if controller.ready wait then ⟨.Ok, [(op, true)]⟩ else ⟨.Error, [(op, false)]⟩

/-- The L152 also waits before an operation. -/
def waitAndStart (controller : FlashController) (wait : Nat) (op : FlashOp) : FlashCall :=
  if controller.ready wait then startOp controller (wait + 1) op else ⟨.Error, []⟩

def erase_page (controller : FlashController) (wait : Nat) (address : UInt32) : FlashCall :=
  waitAndStart controller wait (.erase_page address)

/-- The loop over the pages of the L152. -/
def eraseLoop (controller : FlashController) (base : UInt32) (erase_size offset wait : Nat) :
    FlashCall :=
  if offset < erase_size then
    (erase_page controller wait (base + UInt32.ofNat offset)).andThen
      (eraseLoop controller base erase_size (offset + BOOT_FLASH_PAGE_SIZE.toNat) (wait + 2))
  else ⟨.Ok, []⟩
termination_by erase_size - offset
decreasing_by
  have : BOOT_FLASH_PAGE_SIZE.toNat = 256 := rfl
  omega

def boot_flash_erase_slot (board : Board) (controller : FlashController)
    (slot image_size : UInt32) : FlashCall :=
  if ¬ slot_is_valid slot then ⟨.InvalidArgument, []⟩
  else if image_size = 0 ∨ image_size > APP_SLOT_SIZE board then ⟨.InvalidArgument, []⟩
  else if ¬ controller.unlocks then ⟨.Error, []⟩
  else
    match board with
    | .L152 =>
      let erase_size := (image_size + BOOT_FLASH_PAGE_SIZE - 1) &&& ~~~(BOOT_FLASH_PAGE_SIZE - 1)
      eraseLoop controller (slot_base board slot) erase_size.toNat 0 0
    | .F446 => waitAndStart controller 0 (.erase_sector (slot_sector slot))

/-- One round of the loop that makes a word: byte `byte` of the word is `value`. -/
def setByte (word : UInt32) (byte : Nat) (value : UInt8) : UInt32 :=
  (word &&& ~~~((0xFF : UInt32) <<< (8 * byte).toUInt32)) |||
    (value.toUInt32 <<< (8 * byte).toUInt32)

/-- The word of the `chunk` bytes at `index`. The bytes after them are `0xFF`. -/
def chunkWord (data : Memory) (index chunk : Nat) : UInt32 :=
  (List.range chunk).foldl (fun word byte => setByte word byte (data (index + byte))) 0xFFFFFFFF

def program_word (board : Board) (controller : FlashController) (wait : Nat)
    (address word : UInt32) : FlashCall :=
  match board with
  | .L152 => waitAndStart controller wait (.program address word)
  | .F446 => startOp controller wait (.program address word)

/-- How often a driver waits for one word. -/
def waitsPerWord : Board → Nat
  | .L152 => 2
  | .F446 => 1

/-- The loop over the words of the data. -/
def writeLoop (board : Board) (controller : FlashController) (address : UInt32) (data : Memory)
    (len index wait : Nat) : FlashCall :=
  if index < len then
    (program_word board controller wait (address + UInt32.ofNat index)
        (chunkWord data index (min (len - index) 4))).andThen
      (writeLoop board controller address data len (index + 4) (wait + waitsPerWord board))
  else ⟨.Ok, []⟩
termination_by len - index

/-- `data` is `none` for a null pointer. The drivers of both boards make the
same checks in the same order. -/
def boot_flash_write_slot (board : Board) (controller : FlashController)
    (slot offset : UInt32) (data : Option Memory) (len : UInt32) : FlashCall :=
  if ¬ slot_is_valid slot then ⟨.InvalidArgument, []⟩
  else if (len ≠ 0 ∧ data = none) ∨ offset > APP_SLOT_SIZE board ∨
      len > APP_SLOT_SIZE board - offset then ⟨.InvalidArgument, []⟩
  else if offset &&& 3 ≠ 0 then ⟨.InvalidArgument, []⟩
  else if ¬ controller.unlocks then ⟨.Error, []⟩
  else
    writeLoop board controller (slot_base board slot + offset) (data.getD fun _ => 0) len.toNat 0 0

/-! ## The words -/

theorem full_bit (i : Nat) : (0xFF#32).getLsbD i = decide (i < 8) := by
  by_cases h : i < 32
  · revert i; decide
  · rw [BitVec.getLsbD_of_ge _ _ (by omega)]
    simp; omega

theorem lane_setByte (word : UInt32) (value : UInt8) {byte j : Nat} (hb : byte < 4) (hj : j < 4) :
    lane (setByte word byte value) j = if j = byte then value else lane word j := by
  apply UInt8.toBitVec_inj.mp
  apply BitVec.eq_of_getLsbD_eq
  intro i hi
  have hshift : 8 * byte % 4294967296 % (32 : BitVec 32).toNat = 8 * byte := by
    show 8 * byte % 4294967296 % 32 = _
    omega
  have hin : 8 * j + i < 32 := by omega
  rw [lane_bit _ _ hj]
  simp only [setByte, UInt32.toBitVec_or, UInt32.toBitVec_and, UInt32.toBitVec_not,
    UInt32.toBitVec_shiftLeft, BitVec.getLsbD_or, BitVec.getLsbD_and, BitVec.getLsbD_not,
    UInt8.toBitVec_toUInt32, BitVec.shiftLeft_eq', BitVec.getLsbD_shiftLeft, hi, hin, full_bit,
    UInt32.toBitVec_ofNat, UInt32.toBitVec_ofNat', BitVec.getLsbD_setWidth, Nat.toUInt32,
    decide_true, Bool.true_and, BitVec.toNat_ofNat, BitVec.toNat_umod, Nat.reducePow, hshift]
  have hother : (lane word j).toBitVec.getLsbD i = word.toBitVec.getLsbD (8 * j + i) := by
    simp only [lane_bit word j hj, hi, decide_true, Bool.true_and]
  rcases Nat.lt_trichotomy j byte with hlt | rfl | hlt
  · rw [if_neg (Nat.ne_of_lt hlt), hother]
    simp [show 8 * j + i < 8 * byte by omega]
  · rw [if_pos rfl, show 8 * j + i - 8 * j = i by omega]
    simp [hi]
    omega
  · have hpast : ¬ 8 * j + i - 8 * byte < 8 := by omega
    rw [if_neg (Nat.ne_of_gt hlt), hother,
      BitVec.getLsbD_of_ge value.toBitVec _ (Nat.not_lt.mp hpast)]
    simp [hpast, show ¬ 8 * j + i < 8 * byte by omega]

theorem lane_chunkWord (data : Memory) (index : Nat) {chunk j : Nat} (hc : chunk ≤ 4) (hj : j < 4) :
    lane (chunkWord data index chunk) j = if j < chunk then data (index + j) else 0xFF := by
  induction chunk with
  | zero =>
    rw [if_neg (Nat.not_lt_zero j)]
    show lane 0xFFFFFFFF j = _
    rcases (by omega : j = 0 ∨ j = 1 ∨ j = 2 ∨ j = 3) with rfl | rfl | rfl | rfl <;> decide
  | succ chunk ih =>
    have hstep : chunkWord data index (chunk + 1) =
        setByte (chunkWord data index chunk) chunk (data (index + chunk)) := by
      simp [chunkWord, List.range_succ]
    rw [hstep, lane_setByte _ _ (by omega) hj, ih (by omega)]
    split_ifs with h1 h2 h3 h4
    · rw [h1]
    · omega
    · rfl
    · omega
    · omega
    · rfl

/-! ## What a call logs -/

theorem andThen_mem {first next : FlashCall} {entry : FlashOp × Bool}
    (h : entry ∈ (first.andThen next).log) : entry ∈ first.log ∨ entry ∈ next.log := by
  unfold FlashCall.andThen at h
  split at h
  · exact List.mem_append.mp h
  · exact Or.inl h

theorem andThen_ok {first next : FlashCall} (h : (first.andThen next).result = .Ok) :
    first.result = .Ok ∧ next.result = .Ok ∧
      (first.andThen next).log = first.log ++ next.log := by
  unfold FlashCall.andThen at h ⊢
  split at h
  · rename_i hf
    exact ⟨hf, h, by rw [if_pos hf]⟩
  · rename_i hf
    exact absurd h hf

section
variable (controller : FlashController) (wait : Nat) (op : FlashOp)

theorem startOp_mem {entry : FlashOp × Bool} (h : entry ∈ (startOp controller wait op).log) :
    entry.1 = op := by
  unfold startOp at h
  split at h <;> simp_all

theorem startOp_ok (h : (startOp controller wait op).result = .Ok) :
    (startOp controller wait op).log = [(op, true)] := by
  unfold startOp at h ⊢
  split at h
  · rename_i hready
    rw [if_pos hready]
  · cases h

theorem waitAndStart_mem {entry : FlashOp × Bool}
    (h : entry ∈ (waitAndStart controller wait op).log) : entry.1 = op := by
  unfold waitAndStart at h
  split at h
  · exact startOp_mem _ _ _ h
  · cases h

theorem waitAndStart_ok (h : (waitAndStart controller wait op).result = .Ok) :
    (waitAndStart controller wait op).log = [(op, true)] := by
  unfold waitAndStart at h ⊢
  split at h
  · rename_i hready
    rw [if_pos hready]
    exact startOp_ok _ _ _ h
  · cases h

theorem program_word_mem (board : Board) {address word : UInt32} {entry : FlashOp × Bool}
    (h : entry ∈ (program_word board controller wait address word).log) :
    entry.1 = .program address word := by
  cases board with
  | L152 => exact waitAndStart_mem _ _ _ h
  | F446 => exact startOp_mem _ _ _ h

theorem program_word_ok (board : Board) {address word : UInt32}
    (h : (program_word board controller wait address word).result = .Ok) :
    (program_word board controller wait address word).log = [(.program address word, true)] := by
  cases board with
  | L152 => exact waitAndStart_ok _ _ _ h
  | F446 => exact startOp_ok _ _ _ h

end

/-! ## The erase -/

section
variable (controller : FlashController) (base : UInt32)

/-- The loop erases pages at page offsets below the size. -/
theorem eraseLoop_mem (erase_size offset wait : Nat) (hpage : offset % 256 = 0)
    {entry : FlashOp × Bool}
    (h : entry ∈ (eraseLoop controller base erase_size offset wait).log) :
    ∃ k, k % 256 = 0 ∧ k < erase_size ∧ entry.1 = .erase_page (base + UInt32.ofNat k) := by
  induction offset, wait using eraseLoop.induct erase_size with
  | case1 offset wait hlt ih =>
    rw [eraseLoop, if_pos hlt] at h
    rcases andThen_mem h with hpage' | hrest
    · exact ⟨offset, hpage, hlt, waitAndStart_mem _ _ _ hpage'⟩
    · exact ih (by show (offset + 256) % 256 = 0; omega) hrest
  | case2 offset wait hge =>
    rw [eraseLoop, if_neg hge] at h
    cases h

/-- A loop that ends well has erased every page below the size. -/
theorem eraseLoop_ok (erase_size offset wait : Nat)
    (hok : (eraseLoop controller base erase_size offset wait).result = .Ok) :
    (∀ entry ∈ (eraseLoop controller base erase_size offset wait).log,
        ∃ address, entry = (.erase_page address, true)) ∧
      ∀ k, offset ≤ k → k < erase_size → (k - offset) % 256 = 0 →
        (.erase_page (base + UInt32.ofNat k), true) ∈
          (eraseLoop controller base erase_size offset wait).log := by
  induction offset, wait using eraseLoop.induct erase_size with
  | case1 offset wait hlt ih =>
    rw [eraseLoop, if_pos hlt] at hok ⊢
    obtain ⟨hfirst, hrest, hlog⟩ := andThen_ok hok
    have hpage := waitAndStart_ok _ _ _ hfirst
    obtain ⟨hall, hcover⟩ := ih hrest
    rw [hlog]
    constructor
    · intro entry hentry
      rcases List.mem_append.mp hentry with he | he
      · rw [erase_page, hpage, List.mem_singleton] at he
        exact ⟨_, he⟩
      · exact hall entry he
    · intro k hk hks hmod
      apply List.mem_append.mpr
      by_cases hhere : k = offset
      · left
        rw [erase_page, hpage, hhere]
        exact List.mem_singleton_self _
      · right
        have hstep : BOOT_FLASH_PAGE_SIZE.toNat = 256 := rfl
        exact hcover k (by omega) hks (by omega)
  | case2 offset wait hge =>
    rw [eraseLoop, if_neg hge]
    exact ⟨fun _ h => absurd h List.not_mem_nil, fun k _ _ _ => absurd (by omega) hge⟩

end

theorem slot_base_bound (board : Board) (slot : UInt32) :
    (slot_base board slot).toNat + (APP_SLOT_SIZE board).toNat < 2 ^ 32 := by
  unfold slot_base
  split <;> cases board <;> decide

theorem slot_base_add (board : Board) (slot : UInt32) {k : Nat}
    (h : k ≤ (APP_SLOT_SIZE board).toNat) :
    (slot_base board slot + UInt32.ofNat k).toNat = (slot_base board slot).toNat + k := by
  have hbound := slot_base_bound board slot
  rw [UInt32.toNat_add, UInt32.toNat_ofNat', Nat.mod_eq_of_lt (by omega : k < 2 ^ 32)]
  exact Nat.mod_eq_of_lt (by omega)

theorem slot_size_pages (board : Board) : (APP_SLOT_SIZE board).toNat % 256 = 0 := by
  cases board <;> decide

section
variable (board : Board) (controller : FlashController) (slot : UInt32)

/-- What an erase does when its arguments pass the checks. -/
theorem erase_slot_log {image_size : UInt32}
    (h : (boot_flash_erase_slot board controller slot image_size).log ≠ [] ∨
      (boot_flash_erase_slot board controller slot image_size).result = .Ok) :
    slot_is_valid slot ∧ image_size ≤ APP_SLOT_SIZE board ∧
      boot_flash_erase_slot board controller slot image_size =
        match board with
        | .L152 =>
          eraseLoop controller (slot_base board slot) ((image_size.toNat + 255) / 256 * 256) 0 0
        | .F446 => waitAndStart controller 0 (.erase_sector (slot_sector slot)) := by
  unfold boot_flash_erase_slot at h ⊢
  split at h
  · simp at h
  · rename_i hs
    split at h
    · simp at h
    · rename_i hsize
      split at h
      · simp at h
      · rename_i hunlocks
        simp only [not_or, gt_iff_lt, UInt32.not_lt] at hsize
        refine ⟨Decidable.not_not.mp hs, hsize.2, ?_⟩
        rw [if_neg hs, if_neg (by simp [hsize.1, hsize.2]), if_neg hunlocks]
        cases board with
        | L152 =>
          dsimp only
          rw [erase_size_toNat (UInt32.le_iff_toNat_le.mp hsize.2)]
        | F446 => rfl

/-- An erase keeps to its slot. -/
theorem erase_within {image_size : UInt32} {entry : FlashOp × Bool}
    (h : entry ∈ (boot_flash_erase_slot board controller slot image_size).log) :
    (controller.region entry).Within (slotRegion board slot) := by
  obtain ⟨hs, hle, heq⟩ := erase_slot_log board controller slot
    (Or.inl (List.ne_nil_of_mem h))
  rw [heq] at h
  have hsize := UInt32.le_iff_toNat_le.mp hle
  obtain ⟨op, completes⟩ := entry
  cases board with
  | L152 =>
    obtain ⟨k, hk, hks, rfl⟩ := eraseLoop_mem _ _ _ _ _ (by rfl) h
    have hpages := slot_size_pages .L152
    have hpage : BOOT_FLASH_PAGE_SIZE.toNat = 256 := rfl
    simp only [FlashController.region, slotRegion, Region.Within,
      slot_base_add .L152 slot (k := k) (by omega)]
    omega
  | F446 =>
    obtain rfl := waitAndStart_mem _ _ _ h
    simp only [FlashController.region, controller.sector_slots slot hs]
    exact ⟨Nat.le_refl _, Nat.le_refl _⟩

/-- An erase that succeeds has erased the image, up to the end of its last word. -/
theorem erase_covers {image_size : UInt32} (flash : Memory)
    (hok : (boot_flash_erase_slot board controller slot image_size).result = .Ok) {i : Nat}
    (hi : i < (image_size.toNat + 3) / 4 * 4) :
    controller.run flash (boot_flash_erase_slot board controller slot image_size).log
      ((slot_base board slot).toNat + i) = 0xFF := by
  obtain ⟨hs, hle, heq⟩ := erase_slot_log board controller slot (Or.inr hok)
  rw [heq] at hok ⊢
  have hsize := UInt32.le_iff_toNat_le.mp hle
  have hpages := slot_size_pages board
  cases board with
  | L152 =>
    obtain ⟨hall, hcover⟩ := eraseLoop_ok _ _ _ _ _ hok
    apply replay_covered
    · intro entry hentry m
      obtain ⟨address, rfl⟩ := hall entry hentry
      simp [FlashController.content]
    · have hpage : BOOT_FLASH_PAGE_SIZE.toNat = 256 := rfl
      refine ⟨_, hcover (i / 256 * 256) (by omega) (by omega) (by omega), ?_⟩
      simp only [FlashController.region, Region.Has,
        slot_base_add .L152 slot (k := i / 256 * 256) (by omega)]
      omega
  | F446 =>
    rw [waitAndStart_ok _ _ _ hok]
    apply replay_covered
    · intro entry hentry m
      obtain rfl := List.mem_singleton.mp hentry
      simp [FlashController.content]
    · refine ⟨_, List.mem_singleton_self _, ?_⟩
      simp only [FlashController.region, controller.sector_slots slot hs, slotRegion, Region.Has]
      omega

end

/-! ## The write -/

section
variable (board : Board) (controller : FlashController) (address : UInt32) (data : Memory)

/-- The loop programs words at word offsets below the length. -/
theorem writeLoop_mem (len index wait : Nat) {entry : FlashOp × Bool}
    (h : entry ∈ (writeLoop board controller address data len index wait).log) :
    ∃ k word, index ≤ k ∧ (k - index) % 4 = 0 ∧ k < len ∧
      entry.1 = .program (address + UInt32.ofNat k) word := by
  induction index, wait using writeLoop.induct board len with
  | case1 index wait hlt ih =>
    rw [writeLoop, if_pos hlt] at h
    rcases andThen_mem h with hprogram | hrest
    · exact ⟨index, _, Nat.le_refl _, by simp, hlt, program_word_mem _ _ _ hprogram⟩
    · obtain ⟨k, word, hk, hword, hkl, he⟩ := ih hrest
      exact ⟨k, word, by omega, by omega, hkl, he⟩
  | case2 index wait hge =>
    rw [writeLoop, if_neg hge] at h
    cases h

/-- A loop that ends well has programmed each word once, the words before it
first. -/
theorem writeLoop_words (len index wait : Nat)
    (hok : (writeLoop board controller address data len index wait).result = .Ok) {k : Nat}
    (hk : index ≤ k) (hword : (k - index) % 4 = 0) (hkl : k < len) :
    ∃ before after, (writeLoop board controller address data len index wait).log =
        before ++
          (.program (address + UInt32.ofNat k) (chunkWord data k (min (len - k) 4)), true) :: after ∧
      (∀ entry ∈ before, ∃ m word, m + 4 ≤ k ∧
        entry.1 = .program (address + UInt32.ofNat m) word) ∧
      ∀ entry ∈ after, ∃ m word, k + 4 ≤ m ∧ m < len ∧
        entry.1 = .program (address + UInt32.ofNat m) word := by
  induction index, wait using writeLoop.induct board len with
  | case1 index wait hlt ih =>
    rw [writeLoop, if_pos hlt] at hok ⊢
    obtain ⟨hfirst, hrest, hlog⟩ := andThen_ok hok
    rw [hlog, program_word_ok _ _ _ hfirst]
    by_cases hhere : k = index
    · subst hhere
      refine ⟨[], _, rfl, by simp, ?_⟩
      intro entry hentry
      obtain ⟨m, word, hm, -, hml, he⟩ := writeLoop_mem _ _ _ _ _ _ _ hentry
      exact ⟨m, word, hm, hml, he⟩
    · obtain ⟨before, after, heq, hbefore, hafter⟩ := ih hrest (by omega) (by omega)
      rw [heq]
      refine ⟨_ :: before, after, rfl, ?_, hafter⟩
      intro entry hentry
      rcases List.mem_cons.mp hentry with rfl | hmem
      · exact ⟨index, _, by omega, rfl⟩
      · exact hbefore entry hmem
  | case2 index wait hge => omega

/-- After the loop each word holds what programming it over the old one gives. -/
theorem writeLoop_ok (len wait : Nat) (flash : Memory)
    (hfits : ∀ k ≤ len, (address + UInt32.ofNat k).toNat = address.toNat + k)
    (hok : (writeLoop board controller address data len 0 wait).result = .Ok) {k j : Nat}
    (hword : k % 4 = 0) (hkl : k < len) (hj : j < 4) :
    controller.run flash (writeLoop board controller address data len 0 wait).log
        (address.toNat + k + j) =
      lane (controller.program (readWord flash (address.toNat + k))
        (chunkWord data k (min (len - k) 4))) j := by
  obtain ⟨before, after, heq, hbefore, hafter⟩ :=
    writeLoop_words board controller address data len 0 wait hok (Nat.zero_le k) hword hkl
  have hat := hfits k (by omega)
  have hlater : ∀ m : Memory, replay controller.region controller.content m after
      (address.toNat + k + j) = m (address.toNat + k + j) := by
    intro m
    apply replay_frame
    rintro ⟨op, completes⟩ hentry
    obtain ⟨n, word, hn, hnl, rfl⟩ := hafter _ hentry
    simp only [FlashController.region, Region.Has, hfits n (by omega)]
    omega
  have hsame : readWord (replay controller.region controller.content flash before)
      (address.toNat + k) = readWord flash (address.toNat + k) := by
    apply readWord_congr
    intro l hl
    apply replay_frame
    rintro ⟨op, completes⟩ hentry
    obtain ⟨n, word, hn, rfl⟩ := hbefore _ hentry
    simp only [FlashController.region, Region.Has, hfits n (by omega)]
    omega
  rw [heq, FlashController.run, replay_append, replay_cons, hlater]
  simp only [perform, FlashController.region, FlashController.content, Region.Has, hat, hsame,
    if_true]
  rw [if_pos (by omega), Nat.add_sub_cancel_left]

end

theorem aligned_iff (offset : UInt32) : offset &&& 3 = 0 ↔ offset.toNat % 4 = 0 := by
  have hmask : (offset &&& 3).toNat = offset.toNat % 4 := by
    rw [UInt32.toNat_and]
    exact Nat.and_two_pow_sub_one_eq_mod offset.toNat 2
  rw [← hmask]
  exact UInt32.toNat_inj.symm

section
variable (board : Board) (controller : FlashController) (slot : UInt32)

/-- What a write does when its arguments pass the checks. -/
theorem write_slot_log {offset len : UInt32} {data : Option Memory}
    (h : (boot_flash_write_slot board controller slot offset data len).log ≠ [] ∨
      (boot_flash_write_slot board controller slot offset data len).result = .Ok) :
    slot_is_valid slot ∧ offset.toNat + len.toNat ≤ (APP_SLOT_SIZE board).toNat ∧
      offset.toNat % 4 = 0 ∧
      boot_flash_write_slot board controller slot offset data len =
        writeLoop board controller (slot_base board slot + offset) (data.getD fun _ => 0)
          len.toNat 0 0 := by
  unfold boot_flash_write_slot at h ⊢
  split at h
  · simp at h
  · rename_i hs
    split at h
    · simp at h
    · rename_i hrange
      split at h
      · simp at h
      · rename_i haligned
        split at h
        · simp at h
        · rename_i hunlocks
          have hbounds := hrange
          simp only [not_or, gt_iff_lt, UInt32.not_lt, UInt32.le_iff_toNat_le] at hbounds
          have hoffset : offset ≤ APP_SLOT_SIZE board := UInt32.le_iff_toNat_le.mpr hbounds.2.1
          have hlen := hbounds.2.2
          rw [UInt32.toNat_sub_of_le _ _ hoffset] at hlen
          refine ⟨Decidable.not_not.mp hs, by omega,
            (aligned_iff offset).mp (Decidable.not_not.mp haligned), ?_⟩
          rw [if_neg hs, if_neg hrange, if_neg haligned, if_neg hunlocks]

theorem write_address {offset : UInt32} (h : offset.toNat ≤ (APP_SLOT_SIZE board).toNat) :
    (slot_base board slot + offset).toNat = (slot_base board slot).toNat + offset.toNat := by
  have hadd := slot_base_add board slot h
  rwa [UInt32.ofNat_toNat] at hadd

theorem write_address_add {offset : UInt32} {k : Nat}
    (h : offset.toNat + k ≤ (APP_SLOT_SIZE board).toNat) :
    (slot_base board slot + offset + UInt32.ofNat k).toNat =
      (slot_base board slot + offset).toNat + k := by
  have hbound := slot_base_bound board slot
  have hbase := @write_address board slot offset (by omega)
  rw [UInt32.toNat_add, UInt32.toNat_ofNat', Nat.mod_eq_of_lt (by omega : k < 2 ^ 32), hbase]
  exact Nat.mod_eq_of_lt (by omega)

/-- A write keeps to its slot, also with its last word. -/
theorem write_within {offset len : UInt32} {data : Option Memory} {entry : FlashOp × Bool}
    (h : entry ∈ (boot_flash_write_slot board controller slot offset data len).log) :
    (controller.region entry).Within
      ⟨(slot_base board slot).toNat + offset.toNat, (len.toNat + 3) / 4 * 4⟩ := by
  obtain ⟨hs, hle, haligned, heq⟩ := write_slot_log board controller slot
    (Or.inl (List.ne_nil_of_mem h))
  rw [heq] at h
  obtain ⟨op, completes⟩ := entry
  obtain ⟨k, word, -, hk, hkl, rfl⟩ := writeLoop_mem _ _ _ _ _ _ _ h
  simp only [FlashController.region, Region.Within, @write_address board slot offset
    (by omega), @write_address_add board slot offset k (by omega)]
  omega

theorem written_words_within {offset len : UInt32}
    (hle : offset.toNat + len.toNat ≤ (APP_SLOT_SIZE board).toNat)
    (haligned : offset.toNat % 4 = 0) :
    Region.Within ⟨(slot_base board slot).toNat + offset.toNat, (len.toNat + 3) / 4 * 4⟩
      (slotRegion board slot) := by
  have hpages := slot_size_pages board
  simp only [Region.Within, slotRegion]
  omega

/-- Bytes that a write does not reach stay. -/
theorem write_frame {offset len : UInt32} {data : Option Memory} (flash : Memory) {i : Nat}
    (hi : i < offset.toNat ∨ offset.toNat + (len.toNat + 3) / 4 * 4 ≤ i) :
    controller.run flash (boot_flash_write_slot board controller slot offset data len).log
        ((slot_base board slot).toNat + i) = flash ((slot_base board slot).toNat + i) := by
  apply replay_confined _ _ fun entry hentry => write_within board controller slot hentry
  simp only [Region.Has]
  omega

/-- A write that succeeds has programmed each word of the data over the old one. -/
theorem write_words {offset len : UInt32} {data : Option Memory} (flash : Memory)
    (hok : (boot_flash_write_slot board controller slot offset data len).result = .Ok) {i : Nat}
    (hi : i < (len.toNat + 3) / 4 * 4) :
    controller.run flash (boot_flash_write_slot board controller slot offset data len).log
        ((slot_base board slot).toNat + (offset.toNat + i)) =
      lane (controller.program
          (readWord flash ((slot_base board slot).toNat + (offset.toNat + i / 4 * 4)))
          (chunkWord (data.getD fun _ => 0) (i / 4 * 4) (min (len.toNat - i / 4 * 4) 4)))
        (i % 4) := by
  obtain ⟨hs, hle, haligned, heq⟩ := write_slot_log board controller slot (Or.inr hok)
  rw [heq] at hok ⊢
  have hbase := @write_address board slot offset (by omega)
  have hfits : ∀ k ≤ len.toNat,
      (slot_base board slot + offset + UInt32.ofNat k).toNat =
        (slot_base board slot + offset).toNat + k := by
    intro k hk
    exact write_address_add board slot (by omega)
  have hword := @writeLoop_ok board controller _ _ len.toNat 0 flash hfits hok (i / 4 * 4) (i % 4)
    (by omega) (by omega) (by omega)
  rw [hbase] at hword
  rw [show (slot_base board slot).toNat + (offset.toNat + i) =
      (slot_base board slot).toNat + offset.toNat + i / 4 * 4 + i % 4 by omega, hword,
    Nat.add_assoc]

/-- Where the words are stored as they are, the data stand after the write. -/
theorem write_data {offset len : UInt32} {data : Option Memory} (flash : Memory)
    (hok : (boot_flash_write_slot board controller slot offset data len).result = .Ok)
    (hstored : ∀ k word, k % 4 = 0 → k < len.toNat →
      controller.program (readWord flash ((slot_base board slot).toNat + (offset.toNat + k))) word =
        word) {i : Nat} (hi : i < (len.toNat + 3) / 4 * 4) :
    controller.run flash (boot_flash_write_slot board controller slot offset data len).log
        ((slot_base board slot).toNat + (offset.toNat + i)) =
      if i < len.toNat then data.getD (fun _ => 0) i else 0xFF := by
  rw [write_words board controller slot flash hok hi, hstored _ _ (by omega) (by omega),
    lane_chunkWord _ _ (by omega) (by omega), show i / 4 * 4 + i % 4 = i by omega]
  split_ifs
  · rfl
  · omega
  · omega
  · rfl

/-- A write that succeeds over erased bytes leaves the data there and changes
nothing else. -/
theorem write_stores {offset len : UInt32} {data : Option Memory} (flash : Memory)
    (hok : (boot_flash_write_slot board controller slot offset data len).result = .Ok)
    (herased : ∀ i, offset.toNat ≤ i → i < offset.toNat + (len.toNat + 3) / 4 * 4 →
      flash ((slot_base board slot).toNat + i) = 0xFF) (i : Nat) :
    controller.run flash (boot_flash_write_slot board controller slot offset data len).log
        ((slot_base board slot).toNat + i) =
      if offset.toNat ≤ i ∧ i < offset.toNat + len.toNat then
        data.getD (fun _ => 0) (i - offset.toNat)
      else flash ((slot_base board slot).toNat + i) := by
  by_cases hin : offset.toNat ≤ i ∧ i < offset.toNat + (len.toNat + 3) / 4 * 4
  · have hstored : ∀ k word, k % 4 = 0 → k < len.toNat → controller.program
        (readWord flash ((slot_base board slot).toNat + (offset.toNat + k))) word = word := by
      intro k word hk hkl
      have hold : readWord flash ((slot_base board slot).toNat + (offset.toNat + k)) =
          0xFFFFFFFF := by
        apply readWord_of_lanes
        intro j hj
        rw [Nat.add_assoc, herased _ (by omega) (by omega)]
        rcases (by omega : j = 0 ∨ j = 1 ∨ j = 2 ∨ j = 3) with rfl | rfl | rfl | rfl <;> rfl
      rw [hold, controller.program_erased]
    have hdata := @write_data board controller slot offset len data flash hok hstored
      (i - offset.toNat) (by omega)
    rw [show offset.toNat + (i - offset.toNat) = i by omega] at hdata
    rw [hdata, herased i hin.1 hin.2]
    split_ifs
    · rfl
    · omega
    · omega
    · rfl
  · rw [write_frame board controller slot flash (by omega), if_neg (by omega)]

end

/-! ## A controller without faults -/

section
variable (board : Board) (controller : FlashController)
  (hunlocks : controller.unlocks = true) (hready : ∀ wait, controller.ready wait = true)

theorem andThen_succeeds {first next : FlashCall} (hf : first.result = .Ok)
    (hn : next.result = .Ok) : (first.andThen next).result = .Ok := by
  unfold FlashCall.andThen
  rw [if_pos hf]
  exact hn

include hready

theorem waitAndStart_succeeds (wait : Nat) (op : FlashOp) :
    (waitAndStart controller wait op).result = .Ok := by
  simp [waitAndStart, startOp, hready]

theorem program_word_succeeds (wait : Nat) (address word : UInt32) :
    (program_word board controller wait address word).result = .Ok := by
  cases board <;> simp [program_word, waitAndStart, startOp, hready]

theorem eraseLoop_succeeds (base : UInt32) (erase_size offset wait : Nat) :
    (eraseLoop controller base erase_size offset wait).result = .Ok := by
  induction offset, wait using eraseLoop.induct erase_size with
  | case1 offset wait hlt ih =>
    rw [eraseLoop, if_pos hlt]
    exact andThen_succeeds (waitAndStart_succeeds controller hready _ _) ih
  | case2 offset wait hge => rw [eraseLoop, if_neg hge]

theorem writeLoop_succeeds (address : UInt32) (data : Memory) (len index wait : Nat) :
    (writeLoop board controller address data len index wait).result = .Ok := by
  induction index, wait using writeLoop.induct board len with
  | case1 index wait hlt ih =>
    rw [writeLoop, if_pos hlt]
    exact andThen_succeeds (program_word_succeeds board controller hready _ _ _) ih
  | case2 index wait hge => rw [writeLoop, if_neg hge]

include hunlocks

theorem erase_succeeds {slot image_size : UInt32} (hs : slot_is_valid slot)
    (h0 : image_size ≠ 0) (hle : image_size ≤ APP_SLOT_SIZE board) :
    (boot_flash_erase_slot board controller slot image_size).result = .Ok := by
  simp only [boot_flash_erase_slot, hs, h0, UInt32.not_lt.mpr hle, hunlocks, not_true_eq_false,
    or_self, if_false]
  cases board with
  | L152 => exact eraseLoop_succeeds controller hready _ _ _ _
  | F446 => exact waitAndStart_succeeds controller hready _ _

theorem write_succeeds {slot offset len : UInt32} (bytes : Memory) (hs : slot_is_valid slot)
    (h3 : offset &&& 3 = 0) (hle : offset.toNat + len.toNat ≤ (APP_SLOT_SIZE board).toNat) :
    (boot_flash_write_slot board controller slot offset (some bytes) len).result = .Ok := by
  have hoffset : offset ≤ APP_SLOT_SIZE board := UInt32.le_iff_toNat_le.mpr (by omega)
  have hlen : len ≤ APP_SLOT_SIZE board - offset := by
    apply UInt32.le_iff_toNat_le.mpr
    rw [UInt32.toNat_sub_of_le _ _ hoffset]
    omega
  simp only [boot_flash_write_slot, hs, h3, UInt32.not_lt.mpr hoffset, UInt32.not_lt.mpr hlen,
    hunlocks, reduceCtorEq, and_false, ne_eq, not_true_eq_false, or_self, if_false]
  exact writeLoop_succeeds board controller hready _ _ _ _ _

end

/-- The sectors of the F446. -/
def F446_SECTORS (number : UInt32) : Region :=
  if number < 4 then ⟨0x08000000 + 0x4000 * number.toNat, 0x4000⟩
  else if number = 4 then ⟨0x08010000, 0x10000⟩
  else ⟨0x08020000 + 0x20000 * (number.toNat - 5), 0x20000⟩

/-- A controller that never fails. -/
def readyController : FlashController where
  unlocks := true
  ready := fun _ => true
  sector := F446_SECTORS
  sector_slots := by
    rintro slot (rfl | rfl) <;> rfl
  program := fun _ word => word
  program_erased := fun _ => rfl
  cleared := fun _ => false
  left := 0

/-! ## Calls and slots -/

/-- The bootloader, the boot state and the other slot. -/
def protectedRegions (board : Board) (slot : UInt32) : List Region :=
  [⟨BOOTLOADER_START_ADDR.toNat, (BOOTLOADER_SIZE board).toNat⟩,
    ⟨(BOOT_STATE_START_ADDR board).toNat, (BOOT_STATE_SIZE board).toNat⟩,
    slotRegion board (otherSlot slot)]

theorem protected_disjoint (board : Board) {slot : UInt32} (hs : slot_is_valid slot) {r : Region}
    (hr : r ∈ protectedRegions board slot) :
    r.start + r.length ≤ (slotRegion board slot).start ∨
      (slotRegion board slot).start + (slotRegion board slot).length ≤ r.start := by
  have hall : ∀ r ∈ protectedRegions board slot,
      r.start + r.length ≤ (slotRegion board slot).start ∨
        (slotRegion board slot).start + (slotRegion board slot).length ≤ r.start := by
    rcases hs with rfl | rfl <;> cases board <;> decide
  exact hall r hr

section
variable (board : Board) (controller : FlashController)

/-- Operations of a valid slot leave the other regions. -/
theorem run_protected {slot : UInt32} {log : List (FlashOp × Bool)} (flash : Memory)
    (h : ∀ entry ∈ log, slot_is_valid slot ∧
      (controller.region entry).Within (slotRegion board slot)) {r : Region}
    (hr : r ∈ protectedRegions board slot) {address : Nat} (ha : r.Has address) :
    controller.run flash log address = flash address := by
  apply replay_frame
  intro entry hentry hin
  obtain ⟨hs, hwithin⟩ := h entry hentry
  have hslot := hwithin.has hin
  have hdisjoint := protected_disjoint board hs hr
  unfold Region.Has at ha hslot
  omega

theorem erase_confined {slot image_size : UInt32} {entry : FlashOp × Bool}
    (h : entry ∈ (boot_flash_erase_slot board controller slot image_size).log) :
    slot_is_valid slot ∧ (controller.region entry).Within (slotRegion board slot) :=
  ⟨(erase_slot_log board controller slot (Or.inl (List.ne_nil_of_mem h))).1,
    erase_within board controller slot h⟩

theorem write_confined {slot offset len : UInt32} {data : Option Memory} {entry : FlashOp × Bool}
    (h : entry ∈ (boot_flash_write_slot board controller slot offset data len).log) :
    slot_is_valid slot ∧ (controller.region entry).Within (slotRegion board slot) := by
  obtain ⟨hs, hle, haligned, -⟩ := write_slot_log board controller slot
    (Or.inl (List.ne_nil_of_mem h))
  have hwords := write_within board controller slot h
  have hslot := written_words_within board slot hle haligned
  unfold Region.Within at *
  exact ⟨hs, by omega⟩

/-- Whatever the controller does, the two calls erase and program addresses of
their slot only. An erase that succeeds covers the image. A write that succeeds
over erased bytes leaves the data in their place and every other byte as it was. -/
theorem calls_confined_complete (flash : Memory) (slot image_size offset len : UInt32)
    (data : Option Memory) :
    let erase := boot_flash_erase_slot board controller slot image_size
    let write := boot_flash_write_slot board controller slot offset data len
    let base := (slot_base board slot).toNat
    (∀ entry ∈ erase.log ++ write.log,
        (controller.region entry).Within (slotRegion board slot)) ∧
      (∀ r ∈ protectedRegions board slot, ∀ address, r.Has address →
        controller.run flash erase.log address = flash address ∧
          controller.run flash write.log address = flash address) ∧
      (erase.result = .Ok → ∀ i < image_size.toNat,
        controller.run flash erase.log (base + i) = 0xFF) ∧
      (write.result = .Ok →
        (∀ i, offset.toNat ≤ i → i < offset.toNat + (len.toNat + 3) / 4 * 4 →
          flash (base + i) = 0xFF) →
        ∀ i, controller.run flash write.log (base + i) =
          if offset.toNat ≤ i ∧ i < offset.toNat + len.toNat then
            data.getD (fun _ => 0) (i - offset.toNat)
          else flash (base + i)) := by
  intro erase write base
  refine ⟨?_, ?_, ?_, ?_⟩
  · intro entry hentry
    rcases List.mem_append.mp hentry with h | h
    · exact (erase_confined board controller h).2
    · exact (write_confined board controller h).2
  · intro r hr address ha
    constructor
    · exact run_protected board controller flash
        (fun entry h => erase_confined board controller h) hr ha
    · exact run_protected board controller flash
        (fun entry h => write_confined board controller h) hr ha
  · intro hok i hi
    exact erase_covers board controller slot flash hok (by omega)
  · intro hok herased i
    exact write_stores board controller slot flash hok herased i

end

/-- Three bytes over an erased flash: both calls succeed, and the fourth byte of
the word is still erased. -/
theorem calls_confined_complete_bytes :
    (boot_flash_erase_slot .F446 readyController BOOT_SLOT_A 3).result = .Ok ∧
      readyController.run (fun _ => 0xFF) (boot_flash_write_slot .F446 readyController BOOT_SLOT_A
          0x20 (some fun _ => 0x44) 3).log 0x08020022 = 0x44 ∧
      readyController.run (fun _ => 0xFF) (boot_flash_write_slot .F446 readyController BOOT_SLOT_A
          0x20 (some fun _ => 0x44) 3).log 0x08020023 = 0xFF := by
  obtain ⟨-, -, -, hwrite⟩ := calls_confined_complete .F446 readyController (fun _ => 0xFF)
    BOOT_SLOT_A 3 0x20 3 (some fun _ => 0x44)
  have hok := @write_succeeds .F446 readyController rfl (fun _ => rfl) BOOT_SLOT_A 0x20 3
    (fun _ => 0x44) slot_a_valid (by decide) (by decide)
  have hbytes := hwrite hok fun _ _ _ => rfl
  exact ⟨@erase_succeeds .F446 readyController rfl (fun _ => rfl) BOOT_SLOT_A 3 slot_a_valid
    (by decide) (by decide), hbytes 0x22, hbytes 0x23⟩

end stm32_vibe.flash_driver
