-- One boot run of `main`: the update request, the selection of a candidate
-- and the save of its attempt, the checks of the image with the fallback, and
-- the handoff, the relocation and the jump.
import Stm32Vibe.SaveHistory
import Stm32Vibe.BootRuntime

namespace stm32_vibe.boot_main

open little_endian boot_state boot_policy boot_state_store save_history app_image boot_runtime

/-! ## The run -/

/-- Where a boot run ends. Neither `jump_to_app` nor the update loop returns. -/
inductive BootEnd where
  /-- `jump_to_app` with its arguments, for a candidate. -/
  | Jump (candidate : BootCandidate) (vector_base stack_pointer reset_handler got_base : UInt32)
  | UpdateMode
  | PowerLost
deriving DecidableEq, Repr

/-- What a boot run changes, and the calls of `boot_state_store_save_next` in order. -/
structure BootMemory where
  copies : Copies
  ram : Ram
  saves : List (BootStateRecord × SaveOutcome)

def UPDATE_HANDOFF_MAGIC : UInt32 := 0x55504454

/-- No update is requested by an empty word. -/
theorem zero_ne_magic : (0 : UInt32) ≠ UPDATE_HANDOFF_MAGIC := by decide

def update_handoff_take (board : Board) (ram : Ram) : Bool × Ram :=
  let word := (BOOT_UPDATE_REQUEST_ADDR board).toNat
  if ram word ≠ UPDATE_HANDOFF_MAGIC then (false, ram) else (true, Function.update ram word 0)

def prepare_boot_handoff (board : Board) (candidate : BootCandidate) (image : AppImageResult)
    (state : BootStateRecord) (ram : Ram) : Ram :=
  writeHandoff board ram (boot_handoff_update_crc
    { magic := BOOT_HANDOFF_MAGIC
      version := BOOT_HANDOFF_VERSION
      size := HANDOFF_SIZE
      image_base := candidate.image_base
      image_size := image.image_size
      slot := candidate.slot
      state := if candidate.boot_pending then BOOT_HANDOFF_PENDING else BOOT_HANDOFF_CONFIRMED
      boot_attempt := if candidate.boot_pending then state.pending_attempts else 0
      crc32 := 0 })

def prepare_relocatable_runtime (board : Board) (image : Image) (image_base : UInt32)
    (manifest : AppManifest) (ram : Ram) : Bool × Ram :=
  boot_runtime_relocate image image_base manifest.image_size (app_manifest_vector_words manifest)
    (app_manifest_got_offset manifest) (app_manifest_got_size manifest)
    (BOOT_RUNTIME_VECTOR_ADDR board).toNat BOOT_RUNTIME_VECTOR_WORDS
    (BOOT_RUNTIME_GOT_ADDR board).toNat BOOT_RUNTIME_GOT_WORDS ram

/-- `main` ignores the result of the call. -/
def BootMemory.save (memory : BootMemory) (state : BootStateRecord) (outcome : SaveOutcome) :
    BootMemory :=
  { memory with
    copies := (boot_state_store_save_next memory.copies state outcome).1
    saves := memory.saves ++ [(state, outcome)] }

/-- `main` from the read of the vectors on. -/
def main_start (board : Board) (slots : Slots) (bad_save : SaveOutcome)
    (candidate : BootCandidate) (image_result : AppImageResult) (boot_state : BootStateRecord)
    (memory : BootMemory) : BootEnd × BootMemory :=
  let image := slots.image candidate.slot
  let stack_pointer := readWord image 0
  let reset_handler := readWord image 4
  let manifest := manifestOf image
  if ¬ vectorsAccepted board image image_result.image_size candidate.image_base
      candidate.image_end then
    if candidate.boot_pending then
      let boot_state := boot_policy_mark_pending_bad boot_state
      let memory := memory.save boot_state bad_save
      if bad_save.isPowerLost then (.PowerLost, memory) else (.UpdateMode, memory)
    else (.UpdateMode, memory)
  else
    let memory :=
      { memory with ram := prepare_boot_handoff board candidate image_result boot_state memory.ram }
    if app_manifest_is_relocatable manifest then
      let (ok, ram) :=
        prepare_relocatable_runtime board image candidate.image_base manifest memory.ram
      let memory := { memory with ram }
      if ¬ ok then (.UpdateMode, memory)
      else
        let vectors := (BOOT_RUNTIME_VECTOR_ADDR board).toNat
        (.Jump candidate (BOOT_RUNTIME_VECTOR_ADDR board) (ram vectors) (ram (vectors + 4))
          (BOOT_RUNTIME_GOT_ADDR board), memory)
    else (.Jump candidate candidate.image_base stack_pointer reset_handler 0, memory)

/-- `main` from the check of the image on. -/
def main_image (board : Board) (slots : Slots) (bad_save : SaveOutcome)
    (candidate : BootCandidate) (boot_state : BootStateRecord) (memory : BootMemory) :
    BootEnd × BootMemory :=
  let image_result := app_image_validate (slots.image candidate.slot)
    (candidate.image_end - candidate.image_base)
  if image_result.status ≠ .Valid then
    if candidate.boot_pending then
      let boot_state := boot_policy_mark_pending_bad boot_state
      let memory := memory.save boot_state bad_save
      if bad_save.isPowerLost then (.PowerLost, memory)
      else
        let (candidate, boot_state) := boot_policy_select_candidate board boot_state
        let image_result := app_image_validate (slots.image candidate.slot)
          (candidate.image_end - candidate.image_base)
        if image_result.status ≠ .Valid then (.UpdateMode, memory)
        else main_start board slots bad_save candidate image_result boot_state memory
    else (.UpdateMode, memory)
  else main_start board slots bad_save candidate image_result boot_state memory

/-- `main`, from reset. `traffic` says whether the probe for an update saw a
byte or a frame. `count_save` ends the first save and `bad_save` the second. -/
def main (board : Board) (traffic : Bool) (count_save bad_save : SaveOutcome) (slots : Slots)
    (copies : Copies) (ram : Ram) : BootEnd × BootMemory :=
  let (requested, ram) := update_handoff_take board ram
  let memory : BootMemory := { copies, ram, saves := [] }
  if requested then (.UpdateMode, memory)
  else if traffic then (.UpdateMode, memory)
  else
    let boot_state := boot_state_store_load copies
    let boot_state_generation := boot_state.generation
    let (candidate, boot_state) := boot_policy_select_candidate board boot_state
    if boot_state.generation ≠ boot_state_generation then
      let memory := memory.save boot_state count_save
      if count_save.isPowerLost then (.PowerLost, memory)
      else main_image board slots bad_save candidate boot_state memory
    else main_image board slots bad_save candidate boot_state memory

/-! ## The checks of one slot -/

section
variable (board : Board) (slots : Slots) (slot : UInt32)

/-- The check of the image, with the size of the slot as the capacity. -/
def ImageAccepted : Prop :=
  (app_image_validate (slots.image slot) (APP_SLOT_SIZE board)).status = .Valid

/-- The check of the first two vectors. -/
def VectorsAccepted : Prop :=
  vectorsAccepted board (slots.image slot) (manifestOf (slots.image slot)).image_size
    (slot_base board slot) (slot_end board slot)

/-- The checks of `boot_runtime_relocate`, for a relocatable image: the bounds
of the vectors and of the GOT, and every vector after the stack pointer. -/
def RelocationAccepted : Prop :=
  let image := slots.image slot
  let manifest := manifestOf image
  app_manifest_is_relocatable manifest →
    RelocationBounds manifest.image_size (app_manifest_vector_words manifest)
        (app_manifest_got_offset manifest) (app_manifest_got_size manifest)
        BOOT_RUNTIME_VECTOR_WORDS BOOT_RUNTIME_GOT_WORDS ∧
      ∀ index, 1 ≤ index → index < (app_manifest_vector_words manifest).toNat →
        VectorAccepted manifest.image_size (readWord image (4 * index))

/-- The image of the slot passes all three checks. -/
structure Bootable : Prop where
  image : ImageAccepted board slots slot
  vectors : VectorsAccepted board slots slot
  relocation : RelocationAccepted slots slot

instance : Decidable (ImageAccepted board slots slot) :=
  inferInstanceAs (Decidable (_ = _))

instance : Decidable (VectorsAccepted board slots slot) :=
  inferInstanceAs (Decidable (vectorsAccepted _ _ _ _ _))

end

theorem slot_capacity (board : Board) (slot : UInt32) :
    slot_end board slot - slot_base board slot = APP_SLOT_SIZE board := by
  unfold slot_end slot_base
  split <;> cases board <;> decide

/-! ## The way of a run to its last candidate -/

section
variable (board : Board) (slots : Slots) (state : BootStateRecord)

/-- The ways from the loaded record `state` to the candidate whose vectors are
read: the candidate, the record in the RAM then, and the saved records. -/
inductive BootPath : BootCandidate → BootStateRecord → List BootStateRecord → Prop
  /-- A trial boot of the pending slot. -/
  | trial (due : TrialDue state) (accepted : ImageAccepted board slots state.pending_slot) :
      BootPath (candidateFor board state.pending_slot true) (countAttempt state)
        [countAttempt state]
  /-- The pending slot is exhausted, so it is bad and the active slot boots. -/
  | exhausted (exhausted : Exhausted state) :
      BootPath (candidateFor board state.active_slot false) (boot_policy_mark_pending_bad state)
        [boot_policy_mark_pending_bad state]
  /-- There is no slot to try. -/
  | active (not_exhausted : ¬ Exhausted state) (not_due : ¬ TrialDue state) :
      BootPath (candidateFor board state.active_slot false) state []
  /-- The pending image fails its check after the attempt was counted. -/
  | fallback (due : TrialDue state)
      (rejected : ¬ ImageAccepted board slots state.pending_slot) :
      BootPath (candidateFor board state.active_slot false)
        (boot_policy_mark_pending_bad (countAttempt state))
        [countAttempt state, boot_policy_mark_pending_bad (countAttempt state)]

theorem bootPath_exists : ∃ candidate last saved,
    BootPath board slots state candidate last saved := by
  by_cases he : Exhausted state
  · exact ⟨_, _, _, .exhausted he⟩
  · by_cases hd : TrialDue state
    · by_cases ha : ImageAccepted board slots state.pending_slot
      · exact ⟨_, _, _, .trial hd ha⟩
      · exact ⟨_, _, _, .fallback hd ha⟩
    · exact ⟨_, _, _, .active he hd⟩

end

/-- The memory after a row of saves, the first with one outcome and the rest
with the other. -/
def BootMemory.saveAll (memory : BootMemory) (saved : List BootStateRecord)
    (count_save bad_save : SaveOutcome) : BootMemory :=
  match saved with
  | [] => memory
  | first :: rest =>
    rest.foldl (fun memory state => memory.save state bad_save) (memory.save first count_save)

/-- `main` from the vectors on for the candidate of a path, or the update mode
when the image of that candidate is rejected. -/
def finish (board : Board) (slots : Slots) (bad_save : SaveOutcome) (candidate : BootCandidate)
    (last : BootStateRecord) (memory : BootMemory) : BootEnd × BootMemory :=
  let image_result := app_image_validate (slots.image candidate.slot) (APP_SLOT_SIZE board)
  if image_result.status ≠ .Valid then (.UpdateMode, memory)
  else main_start board slots bad_save candidate image_result last memory

theorem main_image_active (board : Board) (slots : Slots) (bad_save : SaveOutcome)
    (slot : UInt32) (state : BootStateRecord) (memory : BootMemory) :
    main_image board slots bad_save (candidateFor board slot false) state memory =
      finish board slots bad_save (candidateFor board slot false) state memory := by
  unfold main_image finish
  simp only [candidateFor, slot_capacity, Bool.false_eq_true, if_false]
  rfl

theorem main_image_trial (board : Board) (slots : Slots) (bad_save : SaveOutcome)
    {slot : UInt32} (h : ImageAccepted board slots slot) (state : BootStateRecord)
    (memory : BootMemory) :
    main_image board slots bad_save (candidateFor board slot true) state memory =
      finish board slots bad_save (candidateFor board slot true) state memory := by
  unfold ImageAccepted at h
  unfold main_image finish
  simp only [candidateFor, slot_capacity, h, ne_eq, not_true_eq_false, if_false]

theorem main_image_fallback (board : Board) (slots : Slots) (bad_save : SaveOutcome)
    {slot : UInt32} (h : ¬ ImageAccepted board slots slot) (state : BootStateRecord)
    (memory : BootMemory) :
    main_image board slots bad_save (candidateFor board slot true) state memory =
      if bad_save.isPowerLost then
        (.PowerLost, memory.save (boot_policy_mark_pending_bad state) bad_save)
      else
        finish board slots bad_save (candidateFor board state.active_slot false)
          (boot_policy_mark_pending_bad state)
          (memory.save (boot_policy_mark_pending_bad state) bad_save) := by
  unfold ImageAccepted at h
  unfold main_image finish
  simp only [candidateFor, slot_capacity, h, ne_eq, not_false_eq_true, if_true,
    select_no_pending board (mark_pending_bad_pending_slot state), mark_pending_bad_active_slot]
  rfl

/-! ## A run without an update -/

theorem next_generation_ne (generation : UInt32) : generation + 1 ≠ generation := by
  intro h
  have h1 : (1 : UInt32) = 0 := by
    calc (1 : UInt32) = generation + 1 - generation := by rw [UInt32.add_comm]; simp
      _ = 0 := by rw [h]; simp
  exact absurd h1 (by decide)

section
variable {board : Board} {count_save bad_save : SaveOutcome} {slots : Slots} {copies : Copies}
  {ram : Ram}

/-- `main` after the probe saw nothing. -/
theorem main_no_update (hr : ram (BOOT_UPDATE_REQUEST_ADDR board).toNat ≠ UPDATE_HANDOFF_MAGIC) :
    main board false count_save bad_save slots copies ram =
      let boot_state := boot_state_store_load copies
      let (candidate, next) := boot_policy_select_candidate board boot_state
      let memory : BootMemory := { copies, ram, saves := [] }
      if next.generation ≠ boot_state.generation then
        let memory := memory.save next count_save
        if count_save.isPowerLost then (.PowerLost, memory)
        else main_image board slots bad_save candidate next memory
      else main_image board slots bad_save candidate next memory := by
  unfold main update_handoff_take
  simp only [hr, ne_eq, not_false_eq_true, if_true, Bool.false_eq_true, if_false]

/-- No save of a path loses power: `main` reaches the first with `count_save`
and the second with `bad_save`. -/
structure SavesReturn (saved : List BootStateRecord) (count_save bad_save : SaveOutcome) :
    Prop where
  first : 1 ≤ saved.length → count_save.isPowerLost = false
  second : 2 ≤ saved.length → bad_save.isPowerLost = false

/-- A run without an update finishes with the candidate of its path, after the
saves of the path. -/
theorem main_path {candidate : BootCandidate} {last : BootStateRecord}
    {saved : List BootStateRecord}
    (hr : ram (BOOT_UPDATE_REQUEST_ADDR board).toNat ≠ UPDATE_HANDOFF_MAGIC)
    (path : BootPath board slots (boot_state_store_load copies) candidate last saved)
    (hs : SavesReturn saved count_save bad_save) :
    main board false count_save bad_save slots copies ram =
      finish board slots bad_save candidate last
        (BootMemory.saveAll { copies, ram, saves := [] } saved count_save bad_save) := by
  rw [main_no_update hr]
  generalize boot_state_store_load copies = state at path ⊢
  cases path with
  | trial due accepted =>
    simp only [select_trialDue board due, countAttempt_generation, ne_eq, next_generation_ne,
      not_false_eq_true, if_true, hs.first (by simp), Bool.false_eq_true, if_false]
    exact main_image_trial board slots bad_save accepted _ _
  | exhausted exhausted =>
    simp only [select_exhausted board exhausted, mark_pending_bad_generation exhausted.1, ne_eq,
      next_generation_ne, not_false_eq_true, if_true, hs.first (by simp), Bool.false_eq_true,
      if_false]
    exact main_image_active board slots bad_save _ _ _
  | active not_exhausted not_due =>
    simp only [select_active board not_exhausted not_due, ne_eq, not_true_eq_false, if_false]
    exact main_image_active board slots bad_save _ _ _
  | fallback due rejected =>
    simp only [select_trialDue board due, countAttempt_generation, ne_eq, next_generation_ne,
      not_false_eq_true, if_true, hs.first (by simp), Bool.false_eq_true, if_false]
    rw [main_image_fallback board slots bad_save rejected]
    simp only [hs.second (by simp), Bool.false_eq_true, if_false, countAttempt_active_slot]
    rfl

/-- A run whose path loses power at a save ends there: at the first save, or at
the second of a fallback. -/
theorem main_path_lost {candidate : BootCandidate} {last : BootStateRecord}
    {saved : List BootStateRecord}
    (hr : ram (BOOT_UPDATE_REQUEST_ADDR board).toNat ≠ UPDATE_HANDOFF_MAGIC)
    (path : BootPath board slots (boot_state_store_load copies) candidate last saved)
    (hs : ¬ SavesReturn saved count_save bad_save) :
    ∃ n, main board false count_save bad_save slots copies ram =
        (.PowerLost, BootMemory.saveAll { copies, ram, saves := [] } (saved.take n) count_save
          bad_save) ∧
      (2 ≤ n → count_save.isPowerLost = false) := by
  rw [main_no_update hr]
  generalize boot_state_store_load copies = state at path ⊢
  cases hc : count_save.isPowerLost with
  | true =>
    refine ⟨1, ?_, by omega⟩
    cases path with
    | trial due accepted =>
      simp only [select_trialDue board due, countAttempt_generation, ne_eq, next_generation_ne,
        not_false_eq_true, if_true]
      rfl
    | exhausted exhausted =>
      simp only [select_exhausted board exhausted, mark_pending_bad_generation exhausted.1, ne_eq,
        next_generation_ne, not_false_eq_true, if_true]
      rfl
    | active not_exhausted not_due => exact absurd ⟨by simp, by simp⟩ hs
    | fallback due rejected =>
      simp only [select_trialDue board due, countAttempt_generation, ne_eq, next_generation_ne,
        not_false_eq_true, if_true]
      rfl
  | false =>
    refine ⟨2, ?_, fun _ => rfl⟩
    cases path with
    | trial due accepted => exact absurd ⟨fun _ => hc, by simp⟩ hs
    | exhausted exhausted => exact absurd ⟨fun _ => hc, by simp⟩ hs
    | active not_exhausted not_due => exact absurd ⟨by simp, by simp⟩ hs
    | fallback due rejected =>
      have hb : bad_save.isPowerLost = true := by
        by_contra hb
        exact hs ⟨fun _ => hc, fun _ => by simpa using hb⟩
      simp only [select_trialDue board due, countAttempt_generation, ne_eq, next_generation_ne,
        not_false_eq_true, if_true, Bool.false_eq_true, if_false]
      rw [main_image_fallback board slots bad_save rejected]
      simp only [hb, if_true]
      rfl

end

/-! ## The start of an image -/

/-- The RAM with the handoff record and, for a relocatable image, its vectors and GOT. -/
def preparedRam (board : Board) (slots : Slots) (candidate : BootCandidate)
    (last : BootStateRecord) (ram : Ram) : Ram :=
  let image := slots.image candidate.slot
  let ram := prepare_boot_handoff board candidate (app_image_validate image (APP_SLOT_SIZE board))
    last ram
  if app_manifest_is_relocatable (manifestOf image) then
    (prepare_relocatable_runtime board image candidate.image_base (manifestOf image) ram).2
  else ram

/-- The jump to an image that is prepared in `ram`. -/
def jumpTo (board : Board) (slots : Slots) (candidate : BootCandidate) (ram : Ram) : BootEnd :=
  let image := slots.image candidate.slot
  let vectors := (BOOT_RUNTIME_VECTOR_ADDR board).toNat
  if app_manifest_is_relocatable (manifestOf image) then
    .Jump candidate (BOOT_RUNTIME_VECTOR_ADDR board) (ram vectors) (ram (vectors + 4))
      (BOOT_RUNTIME_GOT_ADDR board)
  else .Jump candidate candidate.image_base (readWord image 0) (readWord image 4) 0

section
variable {board : Board} {slots : Slots} {slot : UInt32} {boot_pending : Bool}
  {bad_save : SaveOutcome} {last : BootStateRecord} {memory : BootMemory}

theorem preparedRam_relocatable {candidate : BootCandidate}
    (hr : app_manifest_is_relocatable (manifestOf (slots.image candidate.slot))) (ram : Ram) :
    preparedRam board slots candidate last ram =
      (prepare_relocatable_runtime board (slots.image candidate.slot) candidate.image_base
        (manifestOf (slots.image candidate.slot))
        (prepare_boot_handoff board candidate
          (app_image_validate (slots.image candidate.slot) (APP_SLOT_SIZE board)) last ram)).2 :=
  if_pos hr

theorem preparedRam_absolute {candidate : BootCandidate}
    (hr : ¬ app_manifest_is_relocatable (manifestOf (slots.image candidate.slot))) (ram : Ram) :
    preparedRam board slots candidate last ram =
      prepare_boot_handoff board candidate
        (app_image_validate (slots.image candidate.slot) (APP_SLOT_SIZE board)) last ram :=
  if_neg hr

theorem jumpTo_relocatable {candidate : BootCandidate}
    (hr : app_manifest_is_relocatable (manifestOf (slots.image candidate.slot))) (ram : Ram) :
    jumpTo board slots candidate ram =
      .Jump candidate (BOOT_RUNTIME_VECTOR_ADDR board) (ram (BOOT_RUNTIME_VECTOR_ADDR board).toNat)
        (ram ((BOOT_RUNTIME_VECTOR_ADDR board).toNat + 4)) (BOOT_RUNTIME_GOT_ADDR board) :=
  if_pos hr

theorem jumpTo_absolute {candidate : BootCandidate}
    (hr : ¬ app_manifest_is_relocatable (manifestOf (slots.image candidate.slot))) (ram : Ram) :
    jumpTo board slots candidate ram =
      .Jump candidate candidate.image_base (readWord (slots.image candidate.slot) 0)
        (readWord (slots.image candidate.slot) 4) 0 :=
  if_neg hr

theorem accepted_image_size (h : ImageAccepted board slots slot) :
    (app_image_validate (slots.image slot) (APP_SLOT_SIZE board)).image_size =
      (manifestOf (slots.image slot)).image_size :=
  (app_image_validate_valid h).1

/-- The relocation of `main` succeeds exactly when the image passes its checks. -/
theorem prepare_relocatable_ok (hr : app_manifest_is_relocatable (manifestOf (slots.image slot)))
    (image_base : UInt32) (ram : Ram) :
    (prepare_relocatable_runtime board (slots.image slot) image_base
        (manifestOf (slots.image slot)) ram).1 = true ↔ RelocationAccepted slots slot := by
  unfold prepare_relocatable_runtime RelocationAccepted
  rw [relocate_ok]
  exact ⟨fun h _ => h, fun h => h hr⟩

/-- `main` jumps to a bootable image. -/
theorem finish_bootable (h : Bootable board slots slot) :
    finish board slots bad_save (candidateFor board slot boot_pending) last memory =
      (jumpTo board slots (candidateFor board slot boot_pending)
          (preparedRam board slots (candidateFor board slot boot_pending) last memory.ram),
        { memory with
          ram := preparedRam board slots (candidateFor board slot boot_pending) last
            memory.ram }) := by
  have hv : vectorsAccepted board (slots.image slot)
      (app_image_validate (slots.image slot) (APP_SLOT_SIZE board)).image_size
      (slot_base board slot) (slot_end board slot) := by
    rw [accepted_image_size h.image]
    exact h.vectors
  have hi := h.image
  unfold ImageAccepted at hi
  by_cases hr : app_manifest_is_relocatable
      (manifestOf (slots.image (candidateFor board slot boot_pending).slot))
  · rw [preparedRam_relocatable hr, jumpTo_relocatable hr]
    have hok := @prepare_relocatable_ok board slots _ hr
    simp only [candidateFor] at hr hok ⊢
    unfold finish main_start
    simp only [hi, hv, hr, ne_eq, not_true_eq_false, if_false, if_true,
      (hok _ _).mpr h.relocation]
  · rw [preparedRam_absolute hr, jumpTo_absolute hr]
    simp only [candidateFor] at hr ⊢
    unfold finish main_start
    simp only [hi, hv, hr, ne_eq, not_true_eq_false, if_false]

theorem finish_image_rejected (hi : ¬ ImageAccepted board slots slot) :
    finish board slots bad_save (candidateFor board slot boot_pending) last memory =
      (.UpdateMode, memory) := by
  unfold ImageAccepted at hi
  unfold finish
  simp only [candidateFor, hi, ne_eq, not_false_eq_true, if_true]

/-- A trial image with bad vectors is marked bad, and the run ends in the update mode. -/
theorem finish_vectors_rejected (hi : ImageAccepted board slots slot)
    (hv : ¬ VectorsAccepted board slots slot) :
    finish board slots bad_save (candidateFor board slot boot_pending) last memory =
      if boot_pending then
        (if bad_save.isPowerLost then .PowerLost else .UpdateMode,
          memory.save (boot_policy_mark_pending_bad last) bad_save)
      else (.UpdateMode, memory) := by
  have hsize := accepted_image_size hi
  unfold ImageAccepted at hi
  unfold VectorsAccepted at hv
  unfold finish main_start
  simp only [candidateFor, hi, hsize, hv, ne_eq, not_true_eq_false, not_false_eq_true, if_false,
    if_true]
  cases boot_pending with
  | false => rfl
  | true => cases bad_save.isPowerLost <;> rfl

/-- A failed relocation ends in the update mode too, with no mark. -/
theorem finish_relocation_rejected (hi : ImageAccepted board slots slot)
    (hv : VectorsAccepted board slots slot) (hr : ¬ RelocationAccepted slots slot) :
    finish board slots bad_save (candidateFor board slot boot_pending) last memory =
      (.UpdateMode,
        { memory with
          ram := preparedRam board slots (candidateFor board slot boot_pending) last
            memory.ram }) := by
  have hrel : app_manifest_is_relocatable
      (manifestOf (slots.image (candidateFor board slot boot_pending).slot)) := by
    by_contra hn
    exact hr fun hr' => absurd hr' hn
  rw [preparedRam_relocatable hrel]
  simp only [candidateFor] at hrel ⊢
  have hsize := accepted_image_size hi
  have hok : ∀ ram, (prepare_relocatable_runtime board (slots.image slot) (slot_base board slot)
      (manifestOf (slots.image slot)) ram).1 = false := fun ram => by
    simpa using (prepare_relocatable_ok hrel _ ram).not.mpr hr
  unfold ImageAccepted at hi
  unfold VectorsAccepted at hv
  unfold finish main_start
  simp only [hi, hsize, hv, hrel, hok, ne_eq, not_true_eq_false, if_false, if_true,
    Bool.false_eq_true, not_false_eq_true]

/-- `main` does not jump to an image that is not bootable. -/
theorem finish_not_bootable (h : ¬ Bootable board slots slot) :
    (finish board slots bad_save (candidateFor board slot boot_pending) last memory).1 =
        .UpdateMode ∨
      (finish board slots bad_save (candidateFor board slot boot_pending) last memory).1 =
          .PowerLost ∧
        bad_save.isPowerLost = true := by
  by_cases hi : ImageAccepted board slots slot
  · by_cases hv : VectorsAccepted board slots slot
    · rw [finish_relocation_rejected hi hv fun hr => h ⟨hi, hv, hr⟩]
      exact Or.inl rfl
    · rw [finish_vectors_rejected hi hv]
      cases boot_pending with
      | false => exact Or.inl rfl
      | true =>
        cases bad_save.isPowerLost with
        | false => exact Or.inl rfl
        | true => exact Or.inr ⟨rfl, rfl⟩
  · rw [finish_image_rejected hi]
    exact Or.inl rfl

/-- From the vectors on, only a bad trial image is saved. -/
theorem finish_saves :
    ((finish board slots bad_save (candidateFor board slot boot_pending) last memory).2.copies =
        memory.copies ∧
      (finish board slots bad_save (candidateFor board slot boot_pending) last memory).2.saves =
        memory.saves) ∨
      boot_pending = true ∧
        (finish board slots bad_save (candidateFor board slot boot_pending) last memory).2 =
          memory.save (boot_policy_mark_pending_bad last) bad_save := by
  by_cases hi : ImageAccepted board slots slot
  · by_cases hv : VectorsAccepted board slots slot
    · by_cases hr : RelocationAccepted slots slot
      · rw [finish_bootable ⟨hi, hv, hr⟩]
        exact Or.inl ⟨rfl, rfl⟩
      · rw [finish_relocation_rejected hi hv hr]
        exact Or.inl ⟨rfl, rfl⟩
    · rw [finish_vectors_rejected hi hv]
      cases boot_pending with
      | false => exact Or.inl ⟨rfl, rfl⟩
      | true => exact Or.inr ⟨rfl, rfl⟩
  · rw [finish_image_rejected hi]
    exact Or.inl ⟨rfl, rfl⟩

end

/-! ## Which runs jump -/

section
variable {board : Board} {traffic : Bool} {count_save bad_save : SaveOutcome} {slots : Slots}
  {copies : Copies} {ram : Ram}

theorem saveAll_ram (memory : BootMemory) (saved : List BootStateRecord) :
    (memory.saveAll saved count_save bad_save).ram = memory.ram := by
  cases saved with
  | nil => rfl
  | cons first rest =>
    have hfold : ∀ (rest : List BootStateRecord) (memory : BootMemory),
        (rest.foldl (fun memory state => memory.save state bad_save) memory).ram = memory.ram := by
      intro rest
      induction rest with
      | nil => intro memory; rfl
      | cons state rest ih => intro memory; exact ih (memory.save state bad_save)
    exact hfold rest _

/-- The candidate of a path is a valid slot with its own bounds. -/
theorem bootPath_candidate {state : BootStateRecord} {candidate : BootCandidate}
    {last : BootStateRecord} {saved : List BootStateRecord} (hi : InRange state)
    (path : BootPath board slots state candidate last saved) :
    slot_is_valid candidate.slot ∧
      candidate = candidateFor board candidate.slot candidate.boot_pending := by
  cases path with
  | trial due accepted => exact ⟨pending_slot_valid hi due.1, rfl⟩
  | exhausted exhausted => exact ⟨hi.active_slot, rfl⟩
  | active not_exhausted not_due => exact ⟨hi.active_slot, rfl⟩
  | fallback due rejected => exact ⟨hi.active_slot, rfl⟩

/-- A run that jumps saw no update, made the saves of its path and found the
candidate of the path bootable. -/
structure Jumps (board : Board) (traffic : Bool) (count_save bad_save : SaveOutcome)
    (slots : Slots) (copies : Copies) (ram : Ram) (candidate : BootCandidate)
    (last : BootStateRecord) (saved : List BootStateRecord) : Prop where
  no_request : ram (BOOT_UPDATE_REQUEST_ADDR board).toNat ≠ UPDATE_HANDOFF_MAGIC
  no_traffic : traffic = false
  path : BootPath board slots (boot_state_store_load copies) candidate last saved
  returns : SavesReturn saved count_save bad_save
  bootable : Bootable board slots candidate.slot

/-- Such a run ends with the jump to its candidate. -/
theorem main_of_jumps {candidate : BootCandidate} {last : BootStateRecord}
    {saved : List BootStateRecord}
    (h : Jumps board traffic count_save bad_save slots copies ram candidate last saved) :
    main board traffic count_save bad_save slots copies ram =
      (jumpTo board slots candidate (preparedRam board slots candidate last ram),
        { BootMemory.saveAll { copies, ram, saves := [] } saved count_save bad_save with
          ram := preparedRam board slots candidate last ram }) := by
  have hcand := (bootPath_candidate (load_inRange copies) h.path).2
  have hb := h.bootable
  rw [h.no_traffic, main_path h.no_request h.path h.returns, hcand]
  rw [finish_bootable hb, saveAll_ram]

/-- And every run that ends with a jump is such a run. -/
theorem jumps_of_main {candidate : BootCandidate}
    {vector_base stack_pointer reset_handler got_base : UInt32}
    (h : (main board traffic count_save bad_save slots copies ram).1 =
      .Jump candidate vector_base stack_pointer reset_handler got_base) :
    ∃ last saved, Jumps board traffic count_save bad_save slots copies ram candidate last saved := by
  by_cases hr : ram (BOOT_UPDATE_REQUEST_ADDR board).toNat = UPDATE_HANDOFF_MAGIC
  · simp [main, update_handoff_take, hr] at h
  cases traffic with
  | true => simp [main, update_handoff_take, hr] at h
  | false =>
    obtain ⟨chosen, last, saved, path⟩ :=
      bootPath_exists board slots (boot_state_store_load copies)
    have hcand := (bootPath_candidate (load_inRange copies) path).2
    by_cases hs : SavesReturn saved count_save bad_save
    · by_cases hb : Bootable board slots chosen.slot
      · have hj : Jumps board false count_save bad_save slots copies ram chosen last saved :=
          ⟨hr, rfl, path, hs, hb⟩
        have hsame : chosen = candidate := by
          rw [main_of_jumps hj] at h
          unfold jumpTo at h
          dsimp only at h
          split at h <;> (injection h)
        exact ⟨last, saved, hsame ▸ hj⟩
      · rw [main_path hr path hs, hcand] at h
        rcases @finish_not_bootable board slots _ _ bad_save last _ hb with he | ⟨he, -⟩ <;>
          (rw [he] at h; cases h)
    · obtain ⟨n, hn, -⟩ := main_path_lost hr path hs
      rw [hn] at h
      cases h

end

/-! ## The saves of a run -/

section
variable {board : Board} {traffic : Bool} {count_save bad_save : SaveOutcome} {slots : Slots}
  {copies : Copies} {ram : Ram}

/-- Each record of a path is one step after the record before it. -/
theorem bootPath_steps {state : BootStateRecord} {candidate : BootCandidate}
    {last : BootStateRecord} {saved : List BootStateRecord}
    (path : BootPath board slots state candidate last saved) :
    saved = [] ∨ (∃ first, saved = [first] ∧ RecordStep state first) ∨
      ∃ first second, saved = [first, second] ∧ RecordStep state first ∧
        RecordStep first second := by
  cases path with
  | trial due accepted => exact Or.inr (Or.inl ⟨_, rfl, .count due⟩)
  | exhausted exhausted => exact Or.inr (Or.inl ⟨_, rfl, .bad exhausted.1⟩)
  | active not_exhausted not_due => exact Or.inl rfl
  | fallback due rejected =>
    have hp : (countAttempt state).pending_slot ≠ BOOT_STATE_NO_SLOT := by
      rw [countAttempt_pending_slot]
      exact due.1
    exact Or.inr (Or.inr ⟨_, _, rfl, .count due, .bad hp⟩)

/-- What a boot run saves, with what it finds before each save. -/
inductive BootSaves (board : Board) (slots : Slots) (state : BootStateRecord)
    (count_save bad_save : SaveOutcome) : List (BootStateRecord × SaveOutcome) → Prop
  | none : BootSaves board slots state count_save bad_save []
  | count (due : TrialDue state) :
      BootSaves board slots state count_save bad_save [(countAttempt state, count_save)]
  | bad (exhausted : Exhausted state) :
      BootSaves board slots state count_save bad_save
        [(boot_policy_mark_pending_bad state, count_save)]
  /-- The attempt is counted, and then the image or its vectors are rejected. -/
  | both (due : TrialDue state)
      (rejected : ¬ (ImageAccepted board slots state.pending_slot ∧
        VectorsAccepted board slots state.pending_slot))
      (returns : count_save.isPowerLost = false) :
      BootSaves board slots state count_save bad_save
        [(countAttempt state, count_save),
          (boot_policy_mark_pending_bad (countAttempt state), bad_save)]

/-- The mark of a counted slot is a step from the counted record. -/
theorem mark_after_count {state : BootStateRecord} (due : TrialDue state) :
    RecordStep (countAttempt state) (boot_policy_mark_pending_bad (countAttempt state)) := by
  apply RecordStep.bad
  rw [countAttempt_pending_slot]
  exact due.1

/-- After accepted checks, or for the active image, nothing more is saved. -/
theorem finish_saves_nothing {slot : UInt32} {boot_pending : Bool} {last : BootStateRecord}
    {memory : BootMemory}
    (h : boot_pending = true →
      ImageAccepted board slots slot ∧ VectorsAccepted board slots slot) :
    (finish board slots bad_save (candidateFor board slot boot_pending) last memory).2.copies =
        memory.copies ∧
      (finish board slots bad_save (candidateFor board slot boot_pending) last memory).2.saves =
        memory.saves := by
  cases boot_pending with
  | false =>
    rcases @finish_saves board slots slot false bad_save last memory with hsame | ⟨hfalse, -⟩
    · exact hsame
    · cases hfalse
  | true =>
    obtain ⟨hi, hv⟩ := h rfl
    by_cases hr : RelocationAccepted slots slot
    · rw [finish_bootable ⟨hi, hv, hr⟩]
      exact ⟨rfl, rfl⟩
    · rw [finish_relocation_rejected hi hv hr]
      exact ⟨rfl, rfl⟩

/-- The saves of a path that loses power in one of them. -/
theorem lost_saves {candidate : BootCandidate} {last : BootStateRecord}
    {saved : List BootStateRecord}
    (path : BootPath board slots (boot_state_store_load copies) candidate last saved) (n : Nat)
    (hn : 2 ≤ n → count_save.isPowerLost = false) :
    let memory := BootMemory.saveAll { copies, ram, saves := [] } (saved.take n) count_save bad_save
    BootSaves board slots (boot_state_store_load copies) count_save bad_save memory.saves ∧
      memory.copies = replay copies memory.saves := by
  rcases n with _ | n
  · exact ⟨.none, rfl⟩
  cases path with
  | trial due accepted =>
    rw [List.take_of_length_le (by simp)]
    exact ⟨.count due, rfl⟩
  | exhausted exhausted =>
    rw [List.take_of_length_le (by simp)]
    exact ⟨.bad exhausted, rfl⟩
  | active not_exhausted not_due => exact ⟨.none, rfl⟩
  | fallback due rejected =>
    rcases n with _ | n
    · exact ⟨.count due, rfl⟩
    · rw [List.take_of_length_le (by simp)]
      exact ⟨.both due (fun h => rejected h.1) (hn (by omega)), rfl⟩

/-- Every run of `main` makes these saves, and they lead to its copies. -/
theorem main_saves :
    BootSaves board slots (boot_state_store_load copies) count_save bad_save
        (main board traffic count_save bad_save slots copies ram).2.saves ∧
      (main board traffic count_save bad_save slots copies ram).2.copies =
        replay copies (main board traffic count_save bad_save slots copies ram).2.saves := by
  by_cases hr : ram (BOOT_UPDATE_REQUEST_ADDR board).toNat = UPDATE_HANDOFF_MAGIC
  · simp only [main, update_handoff_take, hr, ne_eq, not_true_eq_false, if_false, if_true]
    exact ⟨.none, rfl⟩
  cases traffic with
  | true =>
    simp only [main, update_handoff_take, hr, ne_eq, not_false_eq_true, if_true,
      Bool.false_eq_true, if_false]
    exact ⟨.none, rfl⟩
  | false =>
    obtain ⟨candidate, last, saved, path⟩ :=
      bootPath_exists board slots (boot_state_store_load copies)
    by_cases hs : SavesReturn saved count_save bad_save
    · rw [main_path hr path hs]
      cases path with
      | trial due accepted =>
        by_cases hv : VectorsAccepted board slots (boot_state_store_load copies).pending_slot
        · obtain ⟨hcopies, hsaves⟩ := @finish_saves_nothing board bad_save slots
            (boot_state_store_load copies).pending_slot true
            (countAttempt (boot_state_store_load copies))
            (BootMemory.saveAll { copies, ram, saves := [] } _ count_save bad_save)
            fun _ => ⟨accepted, hv⟩
          rw [hcopies, hsaves]
          exact ⟨.count due, rfl⟩
        · rw [finish_vectors_rejected accepted hv, if_pos rfl]
          exact ⟨.both due (fun h => hv h.2) (hs.first (by simp)), rfl⟩
      | exhausted exhausted =>
        obtain ⟨hcopies, hsaves⟩ := @finish_saves_nothing board bad_save slots
          (boot_state_store_load copies).active_slot false
          (boot_policy_mark_pending_bad (boot_state_store_load copies))
          (BootMemory.saveAll { copies, ram, saves := [] } _ count_save bad_save) nofun
        rw [hcopies, hsaves]
        exact ⟨.bad exhausted, rfl⟩
      | active not_exhausted not_due =>
        obtain ⟨hcopies, hsaves⟩ := @finish_saves_nothing board bad_save slots
          (boot_state_store_load copies).active_slot false (boot_state_store_load copies)
          (BootMemory.saveAll { copies, ram, saves := [] } _ count_save bad_save) nofun
        rw [hcopies, hsaves]
        exact ⟨.none, rfl⟩
      | fallback due rejected =>
        obtain ⟨hcopies, hsaves⟩ := @finish_saves_nothing board bad_save slots
          (boot_state_store_load copies).active_slot false
          (boot_policy_mark_pending_bad (countAttempt (boot_state_store_load copies)))
          (BootMemory.saveAll { copies, ram, saves := [] } _ count_save bad_save) nofun
        rw [hcopies, hsaves]
        exact ⟨.both due (fun h => rejected h.1) (hs.first (by simp)), rfl⟩
    · obtain ⟨n, hn, hfirst⟩ := main_path_lost hr path hs
      rw [hn]
      exact lost_saves path n hfirst

/-- Every run of `main` leads to a reachable store, however its saves end. -/
theorem main_reachable (h : StoreReachable copies) :
    StoreReachable (main board traffic count_save bad_save slots copies ram).2.copies := by
  obtain ⟨hsaves, hcopies⟩ :=
    @main_saves board traffic count_save bad_save slots copies ram
  rw [hcopies]
  generalize (main board traffic count_save bad_save slots copies ram).2.saves = saves at hsaves ⊢
  cases hsaves with
  | none => exact h
  | count due => exact .save _ count_save (.count due) h
  | bad exhausted => exact .save _ count_save (.bad exhausted.1) h
  | both due rejected returns =>
    exact .twice _ _ count_save bad_save (.count due) (mark_after_count due) h

/-- The saves of any run of `main` are a history of the store. -/
theorem main_history (hc : count_save.Reliable)
    (hroom : generationOf (boot_state_store_load copies) + 1 < 2 ^ 32) :
    SaveHistory copies (main board traffic count_save bad_save slots copies ram).2.saves
      (main board traffic count_save bad_save slots copies ram).2.copies := by
  obtain ⟨hsaves, hcopies⟩ :=
    @main_saves board traffic count_save bad_save slots copies ram
  rw [hcopies]
  generalize (main board traffic count_save bad_save slots copies ram).2.saves = saves at hsaves ⊢
  cases hsaves with
  | none => exact .nil
  | count due => exact .save _ count_save (.count due) .nil
  | bad exhausted => exact .save _ count_save (.bad exhausted.1) .nil
  | both due rejected returns =>
    -- the first save returned, so the counted record is in force
    have hload := load_completed (.count due) hroom
    rw [← completes_of_returns hc returns] at hload
    have step : RecordStep (boot_state_store_load (boot_state_store_save_next copies
        (countAttempt (boot_state_store_load copies)) count_save).1)
        (boot_policy_mark_pending_bad (countAttempt (boot_state_store_load copies))) := by
      rw [hload]
      exact mark_after_count due
    exact .save _ bad_save step (.save _ count_save (.count due) .nil)

end

end stm32_vibe.boot_main
