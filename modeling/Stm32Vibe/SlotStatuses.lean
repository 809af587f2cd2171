-- What the stored statuses say of the slots. A slot said to be valid or confirmed
-- holds an image that passes its check, and a pending one is the one named, as
-- long as no step erases, confirms or activates against the record.
import Stm32Vibe.RunningImage
import Stm32Vibe.SaveInstants

namespace stm32_vibe.slot_statuses

open boot_state boot_policy boot_state_store save_history boot_runtime boot_flash update_protocol
  update_session uart_update transfer_laws repeated_update boot_main handover device
  started_slots trial_boots save_instants running_image

/-! ## What a record says -/

/-- The record says that the slot is valid or confirmed. -/
def SaysRunnable (state : BootStateRecord) (slot : UInt32) : Prop :=
  slot_status_is_runnable (status_for_slot state slot)

/-- A slot said to be pending is the one that the record names. -/
def PendingNamed (state : BootStateRecord) : Prop :=
  ∀ slot, slot_is_valid slot → status_for_slot state slot = BOOT_SLOT_STATUS_PENDING →
    state.pending_slot = slot

/-- The stored statuses tell the truth. -/
structure StatusesTrue (board : Board) (device : Device) : Prop where
  runnable : ∀ slot, slot_is_valid slot →
    SaysRunnable (boot_state_store_load device.copies) slot → ImageAccepted board device.slots slot
  pending : PendingNamed (boot_state_store_load device.copies)

section
variable {state other : BootStateRecord} {slot : UInt32}

theorem saysRunnable_valid (h : SaysRunnable state slot) : slot_is_valid slot := by
  by_contra hn
  have ha : slot ≠ BOOT_SLOT_A := fun h => hn (Or.inl h)
  have hb : slot ≠ BOOT_SLOT_B := fun h => hn (Or.inr h)
  unfold SaysRunnable status_for_slot boot_state_status_for_slot at h
  rw [if_neg ha, if_neg hb] at h
  exact absurd h (by decide)

theorem default_says_nothing : ¬ SaysRunnable boot_state_init_default slot := by
  have hcases : status_for_slot boot_state_init_default slot = BOOT_SLOT_STATUS_EMPTY ∨
      status_for_slot boot_state_init_default slot = BOOT_SLOT_STATUS_BAD := by
    unfold status_for_slot boot_state_status_for_slot boot_state_init_default
    split
    · exact Or.inl (by simp)
    · split
      · exact Or.inl (by simp)
      · exact Or.inr rfl
  unfold SaysRunnable
  rcases hcases with h | h <;> rw [h] <;> decide

theorem default_named : PendingNamed boot_state_init_default := by
  intro slot hslot hstatus
  rcases hslot with rfl | rfl
  · simp [status_for_slot, boot_state_status_for_slot, boot_state_init_default,
      BOOT_SLOT_STATUS_EMPTY, BOOT_SLOT_STATUS_PENDING] at hstatus
  · simp [status_for_slot, boot_state_status_for_slot, boot_state_init_default,
      BOOT_SLOT_STATUS_EMPTY, BOOT_SLOT_STATUS_PENDING] at hstatus

theorem saysRunnable_of_policy (h : state.policy = other.policy) :
    SaysRunnable state slot ↔ SaysRunnable other slot := by
  unfold SaysRunnable
  rw [status_of_policy h]

theorem pendingNamed_of_policy (h : state.policy = other.policy) (hn : PendingNamed other) :
    PendingNamed state := by
  intro slot hslot hstatus
  rw [status_of_policy h] at hstatus
  exact (pending_slot_of_policy h).trans (hn slot hslot hstatus)

theorem countAttempt_runnable :
    SaysRunnable (countAttempt state) slot ↔ SaysRunnable state slot := by
  unfold SaysRunnable
  rw [countAttempt_status]

theorem countAttempt_named (h : PendingNamed state) : PendingNamed (countAttempt state) := by
  intro slot hslot hstatus
  rw [countAttempt_status] at hstatus
  rw [countAttempt_pending_slot]
  exact h slot hslot hstatus

/-- A pending slot was not runnable, so the mark as bad takes nothing away. -/
theorem mark_pending_bad_runnable (hi : InRange state)
    (hp : state.pending_slot ≠ BOOT_STATE_NO_SLOT) (hm : PendingMarked state) :
    SaysRunnable (boot_policy_mark_pending_bad state) slot ↔ SaysRunnable state slot := by
  unfold SaysRunnable
  by_cases hslot : slot = state.pending_slot
  · have hstatus : status_for_slot state state.pending_slot = BOOT_SLOT_STATUS_PENDING := hm hp
    rw [hslot, mark_pending_bad_status hp hi, hstatus]
    decide
  · rw [mark_pending_bad_status_ne state hslot]

theorem mark_pending_bad_named (hi : InRange state)
    (hp : state.pending_slot ≠ BOOT_STATE_NO_SLOT) (h : PendingNamed state) :
    PendingNamed (boot_policy_mark_pending_bad state) := by
  intro slot hslot hstatus
  by_cases hsame : slot = state.pending_slot
  · rw [hsame, mark_pending_bad_status hp hi] at hstatus
    exact absurd hstatus (by decide)
  · rw [mark_pending_bad_status_ne state hsame] at hstatus
    exact absurd (h slot hslot hstatus).symm hsame

section
variable {target : UInt32} (hs : slot_is_valid target) (version image_crc32 : UInt32)
include hs

/-- The activation of a slot that was not runnable takes nothing away. -/
theorem mark_slot_pending_runnable (hn : ¬ SaysRunnable state target) :
    SaysRunnable (boot_policy_mark_slot_pending state target version image_crc32) slot ↔
      SaysRunnable state slot := by
  unfold SaysRunnable at *
  by_cases hslot : slot = target
  · rw [hslot, mark_slot_pending_status state version image_crc32 hs]
    exact iff_of_false (by decide) hn
  · rw [mark_slot_pending_status_ne state version image_crc32 hs hslot]

/-- It names the slot, so the other slot must not say pending. -/
theorem mark_slot_pending_named
    (hn : status_for_slot state (otherSlot target) ≠ BOOT_SLOT_STATUS_PENDING) :
    PendingNamed (boot_policy_mark_slot_pending state target version image_crc32) := by
  intro slot hslot hstatus
  rw [mark_slot_pending_pending_slot state version image_crc32 hs]
  by_contra hne
  rw [mark_slot_pending_status_ne state version image_crc32 hs (Ne.symm hne)] at hstatus
  rw [eq_otherSlot hs hslot (Ne.symm hne)] at hstatus
  exact hn hstatus

end

/-- A confirmation says that both slots are runnable, and that none is pending. -/
theorem confirm_runnable (hp : slot_is_valid state.pending_slot) (hs : slot_is_valid slot) :
    SaysRunnable (boot_policy_confirm_pending state) slot := by
  have hspec := (confirm_pending_spec hp).2
  unfold SaysRunnable boot_policy_confirm_pending
  by_cases hslot : slot = state.pending_slot
  · rw [hslot, hspec.confirmed]
    decide
  · rw [eq_otherSlot hp hs hslot, hspec.other]
    decide

theorem confirm_named (hp : slot_is_valid state.pending_slot) :
    PendingNamed (boot_policy_confirm_pending state) := by
  intro slot hslot hstatus
  have hr := @confirm_runnable state slot hp hslot
  unfold SaysRunnable at hr
  rw [hstatus] at hr
  exact absurd hr (by decide)

end

/-! ## The records in the copies -/

/-- The record stands in one of the copies. -/
def Stands (copies : Copies) (record : BootStateRecord) : Prop :=
  copies.log.even = some record ∨ copies.log.odd = some record

section
variable {copies : Copies} {record other : BootStateRecord}

theorem le_load (h : Stands copies record) :
    Stands copies (boot_state_store_load copies) ∧
      generationOf record ≤ generationOf (boot_state_store_load copies) := by
  obtain ⟨latest, hlatest, hle⟩ := two_copy_log.le_latest generationOf h
  have hload : boot_state_store_load copies = latest := by
    rw [load_eq, hlatest, Option.getD_some]
  rw [hload]
  exact ⟨two_copy_log.latest_mem generationOf hlatest, hle⟩

theorem load_of_none (h : ∀ record, ¬ Stands copies record) :
    boot_state_store_load copies = boot_state_init_default := by
  rw [load_eq]
  cases hlatest : two_copy_log.latest generationOf copies.log with
  | none => rfl
  | some record => exact absurd (two_copy_log.latest_mem generationOf hlatest) (h record)

/-- Each parity has room for one record. -/
theorem stands_unique (ha : two_copy_log.Aligned generationOf copies.log)
    (h : Stands copies record) (ho : Stands copies other)
    (hparity : generationOf record % 2 = generationOf other % 2) : record = other := by
  rcases h with h | h <;> rcases ho with ho | ho
  · exact Option.some.inj (h.symm.trans ho)
  · have heven := ha.even _ h
    have hodd := ha.odd _ ho
    omega
  · have hodd := ha.odd _ h
    have heven := ha.even _ ho
    omega
  · exact Option.some.inj (h.symm.trans ho)

/-- After a save that wrote, a record is the new one or stood in the other copy. -/
theorem stands_save (ha : two_copy_log.Aligned generationOf copies.log) {state : BootStateRecord}
    {outcome : SaveOutcome} (h0 : outcome.steps ≠ 0)
    (h : Stands (boot_state_store_save_next copies state outcome).1 record) :
    record.policy = state.policy ∨
      Stands copies record ∧ generationOf record % 2 ≠ generationOf state % 2 := by
  unfold Stands at h
  rw [log_save] at h
  have hnew : ∀ copy, copyRecord (write_record copy state outcome).1 = some record →
      record.policy = state.policy := by
    intro copy hcopy
    rcases copyRecord_torn copy state h0 with hnone | ⟨torn, htorn, hp⟩
    · rw [hnone] at hcopy
      cases hcopy
    · rw [htorn] at hcopy
      cases hcopy
      exact hp
  unfold two_copy_log.put at h
  split at h
  · rename_i heven
    rcases h with h | h
    · exact Or.inl (hnew _ h)
    · have hodd := ha.odd record h
      exact Or.inr ⟨Or.inr h, by omega⟩
  · rename_i hodd
    rcases h with h | h
    · have heven := ha.even record h
      exact Or.inr ⟨Or.inl h, by omega⟩
    · exact Or.inl (hnew _ h)

end

/-! ## Saves that take nothing away -/

/-- The record in force names its pending slots, and so does every record that
stands beside it and says no more than it. After the last generation the record
in force is no longer the last one that was saved. -/
structure CopiesTrue (copies : Copies) : Prop where
  named : PendingNamed (boot_state_store_load copies)
  others : generationOf (boot_state_store_load copies) = 2 ^ 32 - 1 ∨
    ∀ record, Stands copies record → PendingNamed record ∧
      ∀ slot, SaysRunnable record slot → SaysRunnable (boot_state_store_load copies) slot

theorem copiesTrue_erased : CopiesTrue erasedCopies := by
  refine ⟨?_, Or.inr ?_⟩
  · rw [load_erased]
    exact default_named
  · rintro record (h | h)
    · rw [show erasedCopies.log.even = none from copyRecord_erased] at h
      cases h
    · rw [show erasedCopies.log.odd = none from copyRecord_erased] at h
      cases h

section
variable {copies : Copies} {first second state : BootStateRecord}

theorem copiesTrue_save (hg : StoreGood copies) (h : CopiesTrue copies)
    (step : RecordStep (boot_state_store_load copies) state) (hnamed : PendingNamed state)
    (hmore : ∀ slot, SaysRunnable (boot_state_store_load copies) slot → SaysRunnable state slot)
    (outcome : SaveOutcome) : CopiesTrue (boot_state_store_save_next copies state outcome).1 := by
  by_cases h0 : outcome.steps = 0
  · rw [save_unwritten _ _ h0]
    exact h
  by_cases hroom : generationOf (boot_state_store_load copies) + 1 < 2 ^ 32
  · have hnext := (recordStep_next step hroom).generation
    have hall := h.others.resolve_left (by omega)
    have hnew : ∀ record, record.policy = state.policy → PendingNamed record ∧
        ∀ slot, SaysRunnable record slot ↔ SaysRunnable state slot := fun record hp =>
      ⟨pendingNamed_of_policy hp hnamed, fun _ => saysRunnable_of_policy hp⟩
    rcases load_save_interrupted hg.aligned hnext outcome with hload | hload
    · rw [← hload] at hnext
      refine ⟨?_, Or.inr ?_⟩
      · rw [hload]
        exact h.named
      · intro record hstands
        have hle := (le_load hstands).2
        rcases stands_save hg.aligned h0 hstands with hp | ⟨hold, -⟩
        · rw [generation_of_policy hp] at hle
          omega
        · rw [hload]
          exact hall record hold
    · obtain ⟨hafter, hsame⟩ := hnew _ hload
      refine ⟨hafter, Or.inr ?_⟩
      intro record hstands
      rcases stands_save hg.aligned h0 hstands with hp | ⟨hold, -⟩
      · obtain ⟨hrecord, hagree⟩ := hnew record hp
        exact ⟨hrecord, fun slot hr => (hsame slot).mpr ((hagree slot).mp hr)⟩
      · obtain ⟨hrecord, hagree⟩ := hall record hold
        exact ⟨hrecord, fun slot hr => (hsame slot).mpr (hmore slot (hagree slot hr))⟩
  · have hlt := generation_lt (boot_state_store_load copies)
    have hlast : generationOf (boot_state_store_load copies) = 2 ^ 32 - 1 := by omega
    have hload := load_save_wrapped hg.aligned hlast
      (recordStep_wrapped step (load_inRange copies) hlast) outcome
    refine ⟨?_, Or.inl ?_⟩
    · rw [hload]
      exact h.named
    · rw [hload]
      exact hlast

/-- The record says of each slot what the record in force says. -/
def SaysSame (copies : Copies) (state : BootStateRecord) : Prop :=
  PendingNamed state ∧
    ∀ slot, SaysRunnable state slot ↔ SaysRunnable (boot_state_store_load copies) slot

theorem saysSame_of_policy {record : BootStateRecord} (hp : record.policy = state.policy)
    (h : SaysSame copies state) : SaysSame copies record :=
  ⟨pendingNamed_of_policy hp h.1, fun slot => (saysRunnable_of_policy hp).trans (h.2 slot)⟩

/-- A save of a record that says no more leaves no more said. -/
theorem says_no_more (hg : StoreGood copies) (step : RecordStep (boot_state_store_load copies) state)
    (h : ∀ slot, SaysRunnable state slot → SaysRunnable (boot_state_store_load copies) slot)
    (outcome : SaveOutcome) (slot : UInt32)
    (hr : SaysRunnable (boot_state_store_load
      (boot_state_store_save_next copies state outcome).1) slot) :
    SaysRunnable (boot_state_store_load copies) slot := by
  rcases load_old_or_new step hg outcome with hload | hload
  · rwa [hload] at hr
  · exact h slot ((saysRunnable_of_policy hload).mp hr)

/-- A save of a record that says the same. -/
theorem copiesTrue_once (hg : StoreGood copies) (h : CopiesTrue copies)
    (step : RecordStep (boot_state_store_load copies) state) (hsame : SaysSame copies state)
    (outcome : SaveOutcome) :
    let after := (boot_state_store_save_next copies state outcome).1
    CopiesTrue after ∧ ∀ slot, SaysRunnable (boot_state_store_load after) slot →
      SaysRunnable (boot_state_store_load copies) slot :=
  ⟨copiesTrue_save hg h step hsame.1 (fun slot => (hsame.2 slot).mpr) outcome,
    says_no_more hg step (fun slot => (hsame.2 slot).mp) outcome⟩

/-- When all that stands says the same as the record in force did, so does the new one. -/
theorem copiesTrue_of_same {after : Copies}
    (h : ∀ record, Stands after record → SaysSame copies record) :
    CopiesTrue after ∧ ∀ slot, SaysRunnable (boot_state_store_load after) slot →
      SaysRunnable (boot_state_store_load copies) slot := by
  by_cases hnone : ∀ record, ¬ Stands after record
  · have hload := load_of_none hnone
    refine ⟨⟨?_, Or.inr fun record hr => absurd hr (hnone record)⟩, ?_⟩
    · rw [hload]
      exact default_named
    · intro slot hr
      rw [hload] at hr
      exact absurd hr default_says_nothing
  · obtain ⟨some_record, hsome⟩ := not_forall_not.mp hnone
    obtain ⟨hnamed, hsame⟩ := h _ (le_load hsome).1
    refine ⟨⟨hnamed, Or.inr ?_⟩, fun slot hr => (hsame slot).mp hr⟩
    intro record hstands
    exact ⟨(h record hstands).1,
      fun slot hr => (hsame slot).mpr (((h record hstands).2 slot).mp hr)⟩

/-- A second save that writes over the record in force, after a first one that
did nothing: the older record may come back. -/
theorem copiesTrue_over (hg : StoreGood copies) (h : CopiesTrue copies)
    (hsecond : SaysSame copies second)
    (hgen : generationOf second = generationOf (boot_state_store_load copies) + 2)
    {outcome : SaveOutcome} (h0 : outcome.steps ≠ 0) :
    let after := (boot_state_store_save_next copies second outcome).1
    CopiesTrue after ∧ ∀ slot, SaysRunnable (boot_state_store_load after) slot →
      SaysRunnable (boot_state_store_load copies) slot := by
  intro after
  have hlt := generation_lt second
  have hall := h.others.resolve_left (by omega)
  have hcases : ∀ record, Stands after record → record.policy = second.policy ∨
      Stands copies record ∧ generationOf record % 2 ≠ generationOf second % 2 :=
    fun record hr => stands_save hg.aligned h0 hr
  by_cases hnew : ∃ record, Stands after record ∧ record.policy = second.policy
  · -- the new record is the newest
    obtain ⟨record, hstands, hp⟩ := hnew
    obtain ⟨hload, hle⟩ := le_load hstands
    rw [generation_of_policy hp] at hle
    have hpolicy : (boot_state_store_load after).policy = second.policy := by
      refine (hcases _ hload).resolve_right fun hold => ?_
      have hold := (le_load hold.1).2
      omega
    obtain ⟨hnamed, hsame⟩ := saysSame_of_policy hpolicy hsecond
    refine ⟨⟨hnamed, Or.inr ?_⟩, fun slot hr => (hsame slot).mp hr⟩
    intro other hother
    rcases hcases other hother with hp' | ⟨hold, -⟩
    · obtain ⟨hrecord, hagree⟩ := saysSame_of_policy hp' hsecond
      exact ⟨hrecord, fun slot hr => (hsame slot).mpr ((hagree slot).mp hr)⟩
    · obtain ⟨hrecord, hagree⟩ := hall other hold
      exact ⟨hrecord, fun slot hr => (hsame slot).mpr (hagree slot hr)⟩
  · -- only the older record is left, if any
    have hold : ∀ record, Stands after record →
        Stands copies record ∧ generationOf record % 2 ≠ generationOf second % 2 :=
      fun record hr => (hcases record hr).resolve_left fun hp => hnew ⟨record, hr, hp⟩
    by_cases hnone : ∀ record, ¬ Stands after record
    · exact copiesTrue_of_same fun record hr => absurd hr (hnone record)
    · obtain ⟨some_record, hsome⟩ := not_forall_not.mp hnone
      have hload := hold _ (le_load hsome).1
      obtain ⟨hnamed, hagree⟩ := hall _ hload.1
      refine ⟨⟨hnamed, Or.inr ?_⟩, hagree⟩
      intro record hstands
      have hone := hold record hstands
      rw [stands_unique hg.aligned hone.1 hload.1 (by omega)]
      exact ⟨hnamed, fun _ hr => hr⟩

/-- Two saves of records that say the same, the second after any end of the first. -/
theorem copiesTrue_twice (hg : StoreGood copies) (h : CopiesTrue copies)
    (step : RecordStep (boot_state_store_load copies) first) (step' : RecordStep first second)
    (hfirst : SaysSame copies first) (hsecond : SaysSame copies second)
    (outcome outcome' : SaveOutcome)
    (hroom : outcome.steps ≠ 0 ∨ generationOf (boot_state_store_load copies) + 2 < 2 ^ 32) :
    let after := (boot_state_store_save_next
      (boot_state_store_save_next copies first outcome).1 second outcome').1
    CopiesTrue after ∧ ∀ slot, SaysRunnable (boot_state_store_load after) slot →
      SaysRunnable (boot_state_store_load copies) slot := by
  intro after
  have hi := load_inRange copies
  have hparity := recordStep_parity step' (recordStep_inRange step hi)
  by_cases h0' : outcome'.steps = 0
  · have hafter : after = (boot_state_store_save_next copies first outcome).1 :=
      save_unwritten _ second h0'
    rw [hafter]
    exact copiesTrue_once hg h step hfirst outcome
  by_cases h0 : outcome.steps = 0
  · have hgen := recordStep_generationOf step' (recordStep_inRange step hi)
    rw [(recordStep_next step (by omega)).generation] at hgen
    have hover := @copiesTrue_over copies second hg h hsecond (by omega) outcome' h0'
    have hafter : after = (boot_state_store_save_next copies second outcome').1 := by
      unfold after
      rw [save_unwritten _ first h0]
    rw [hafter]
    exact hover
  · -- both copies were written, the first one before the second
    have hg' := storeGood_save hg (recordStep_marked step hi) outcome
    refine copiesTrue_of_same fun record hstands => ?_
    rcases stands_save hg'.aligned h0' hstands with hp | ⟨hmid, hother⟩
    · exact saysSame_of_policy hp hsecond
    · rcases stands_save hg.aligned h0 hmid with hp | ⟨-, hother'⟩
      · exact saysSame_of_policy hp hfirst
      · omega

end

/-! ## The steps that keep the statuses true -/

/-- What a packet must not do: erase a slot that is said to be runnable, unless
the erase fails and leaves an accepted image, and activate a candidate while
the other slot is said to be pending. -/
structure PacketKeeps (board : Board) (delivery : Delivery) (state : UpdateState) : Prop where
  begins : delivery.packet.command = UPDATE_CMD_BEGIN → BeginAccepted board delivery.packet →
    SaysRunnable (boot_state_store_load state.copies) (beginSlot state) →
    let erase := delivery.flash.erase_slot state.slots (beginSlot state)
      (read_u32_le delivery.packet.payload 0)
    erase.1 ≠ .Ok ∧ ImageAccepted board erase.2 (beginSlot state)
  activates : delivery.packet.command = UPDATE_CMD_ACTIVATE →
    state.session.session_active = true →
    delivery.packet.session_id = state.session.session_id →
    state.session.candidate_valid = true →
    status_for_slot (boot_state_store_load state.copies) (otherSlot state.session.target_slot) ≠
      BOOT_SLOT_STATUS_PENDING

/-- What a step must not do. A confirmation needs accepted images in both slots.
In a boot that saves twice, the first save must not fail before it erases, in
the last generations: the record that stands there may be none of the past. -/
def KeepsTruth (board : Board) (device : Device) : Event → Prop
  | .Boot ram traffic count_save _ =>
    SavesTwice board traffic count_save device.slots device.copies ram →
      count_save ≠ .Fails 0 ∨
        generationOf (boot_state_store_load device.copies) + 2 < 2 ^ 32
  | .Packet delivery => ∀ session, device.mode = .Update session →
      PacketKeeps board delivery (device.updateState session)
  | .Confirm _ => ∀ candidate, device.mode = .Running candidate →
      (boot_state_store_load device.copies).pending_slot ≠ BOOT_STATE_NO_SLOT →
      ImageAccepted board device.slots BOOT_SLOT_A ∧ ImageAccepted board device.slots BOOT_SLOT_B

/-- Each event of the run keeps the statuses true. -/
def KeepTruth (board : Board) (device : Device) (events : List Event) : Prop :=
  ∀ before event after, events = before ++ event :: after →
    KeepsTruth board (device.run board before) event

/-- The statuses are true, and an active session targets a slot that is not runnable. -/
structure Truthful (board : Board) (device : Device) : Prop where
  reachable : DeviceReachable device
  copies : CopiesTrue device.copies
  images : ∀ slot, SaysRunnable (boot_state_store_load device.copies) slot →
    ImageAccepted board device.slots slot
  target : ∀ session, device.mode = .Update session → session.session_active = true →
    ¬ SaysRunnable (boot_state_store_load device.copies) session.target_slot

theorem Truthful.statuses {board : Board} {device : Device} (h : Truthful board device) :
    StatusesTrue board device :=
  ⟨fun slot _ => h.images slot, h.copies.named⟩

theorem accepted_of_same {board : Board} {slots after : Slots} {slot : UInt32}
    (h : after.image slot = slots.image slot) (ha : ImageAccepted board slots slot) :
    ImageAccepted board after slot := by
  unfold ImageAccepted at *
  rw [h]
  exact ha

/-! ## A packet -/

section
variable {board : Board} {delivery : Delivery} {state : UpdateState}

/-- What the invariant says of the state of the update loop. -/
structure UpdateTrue (board : Board) (state : UpdateState) : Prop where
  copies : CopiesTrue state.copies
  images : ∀ slot, SaysRunnable (boot_state_store_load state.copies) slot →
    ImageAccepted board state.slots slot
  target : state.session.session_active = true →
    ¬ SaysRunnable (boot_state_store_load state.copies) state.session.target_slot

/-- A packet that needs the session, with another session id, changes nothing. -/
theorem other_session_ignored (hc : command_requires_active_session delivery.packet.command)
    (hid : delivery.packet.session_id ≠ state.session.session_id) :
    (processOne board delivery state).2 = state := by
  unfold processOne boot_update_session_process
  rw [if_pos ⟨hc, Or.inr hid⟩]

/-- An activation under the condition, however its save ends. -/
theorem updateTrue_activated (hg : StoreGood state.copies) (h : UpdateTrue board state)
    (hvalid : slot_is_valid state.session.target_slot)
    (active : state.session.session_active = true)
    (hother : status_for_slot (boot_state_store_load state.copies)
      (otherSlot state.session.target_slot) ≠ BOOT_SLOT_STATUS_PENDING)
    (save : SaveOutcome) (session : BootUpdateSession)
    (hsession : session.target_slot = state.session.target_slot) :
    UpdateTrue board
      { state with
        session
        copies := (boot_state_store_save_next state.copies (activated state) save).1
        saves := state.saves ++ [(activated state, save)] } := by
  have hagree : ∀ slot, SaysRunnable (activated state) slot ↔
      SaysRunnable (boot_state_store_load state.copies) slot := fun slot =>
    mark_slot_pending_runnable hvalid _ _ (h.target active)
  have step : RecordStep (boot_state_store_load state.copies) (activated state) :=
    .activate _ _ _ hvalid
  obtain ⟨hcopies, hafter⟩ := copiesTrue_once hg h.copies step
    ⟨mark_slot_pending_named hvalid _ _ hother, hagree⟩ save
  constructor
  case copies => exact hcopies
  case images => exact fun slot hr => h.images slot (hafter slot hr)
  case target =>
    intro _ hr
    dsimp only at hr
    rw [hsession] at hr
    exact h.target active (hafter _ hr)

theorem updateTrue_packet (hflash : LawfulFlash delivery.flash) (hg : StoreGood state.copies)
    (hvalid : slot_is_valid state.session.target_slot) (h : UpdateTrue board state)
    (hkeeps : PacketKeeps board delivery state) :
    UpdateTrue board (processOne board delivery state).2 := by
  by_cases hid : command_requires_active_session delivery.packet.command ∧
      delivery.packet.session_id ≠ state.session.session_id
  · rw [other_session_ignored hid.1 hid.2]
    exact h
  have hsame : delivery.packet.command = UPDATE_CMD_ACTIVATE →
      delivery.packet.session_id = state.session.session_id := by
    intro hcommand
    by_contra hne
    refine hid ⟨?_, hne⟩
    rw [hcommand]
    decide
  have step := processOne_step board delivery state
  generalize (processOne board delivery state).2 = next at step
  generalize (processOne board delivery state).1 = status at step
  have herased : ∀ slot, SaysRunnable (boot_state_store_load state.copies) slot →
      slot ≠ beginSlot state → ImageAccepted board (delivery.flash.erase_slot state.slots
        (beginSlot state) (read_u32_le delivery.packet.payload 0)).2 slot := fun slot hr hne =>
    accepted_of_same (hflash.erase_other _ _ _ _ (saysRunnable_valid hr) hne) (h.images slot hr)
  have hwritten : state.session.session_active = true →
      ∀ slot, SaysRunnable (boot_state_store_load state.copies) slot →
        ImageAccepted board (delivery.flash.write_slot state.slots state.session.target_slot
          delivery.packet.sequence delivery.packet.payload).2 slot := by
    intro active slot hr
    have hne : slot ≠ state.session.target_slot := by
      rintro rfl
      exact h.target active hr
    exact accepted_of_same (hflash.write_other _ _ _ _ _ (saysRunnable_valid hr) hne)
      (h.images slot hr)
  cases step with
  | idle => exact h
  | begin_failed command accepted failed =>
    refine ⟨h.copies, fun slot hr => ?_, h.target⟩
    by_cases hslot : slot = beginSlot state
    · rw [hslot] at hr ⊢
      exact (hkeeps.begins command accepted hr).2
    · exact herased slot hr hslot
  | begun command accepted erased =>
    have hnot : ¬ SaysRunnable (boot_state_store_load state.copies) (beginSlot state) :=
      fun hr => (hkeeps.begins command accepted hr).1 erased
    refine ⟨h.copies, fun slot hr => ?_, fun _ => hnot⟩
    apply herased slot hr
    rintro rfl
    exact hnot hr
  | block_failed command active new failed => exact ⟨h.copies, hwritten active, h.target⟩
  | block command active new written => exact ⟨h.copies, hwritten active, h.target⟩
  | ended command active received => exact ⟨h.copies, h.images, h.target⟩
  | validated command active accepted => exact ⟨h.copies, h.images, h.target⟩
  | activate_failed command active valid incomplete =>
    exact updateTrue_activated hg h hvalid active
      (hkeeps.activates command active (hsame command) valid) _ _ rfl
  | activated command active valid completes =>
    exact updateTrue_activated hg h hvalid active
      (hkeeps.activates command active (hsame command) valid) _ _ rfl
  | aborted => exact ⟨h.copies, h.images, nofun⟩

end

/-! ## A boot and a confirmation -/

section
variable {board : Board} {device : Device}

/-- A boot makes the statuses say no more than before. -/
theorem boot_says_no_more (hg : StoreGood device.copies) (h : CopiesTrue device.copies)
    {ram : Ram} {traffic : Bool} {count_save bad_save : SaveOutcome}
    (hkeeps : KeepsTruth board device (.Boot ram traffic count_save bad_save)) :
    let after := (main board traffic count_save bad_save device.slots device.copies ram).2.copies
    CopiesTrue after ∧ ∀ slot, SaysRunnable (boot_state_store_load after) slot →
      SaysRunnable (boot_state_store_load device.copies) slot := by
  intro after
  have hi := load_inRange device.copies
  have hmarked := load_marked hg
  obtain ⟨hsaves, hcopies⟩ :=
    @main_saves board traffic count_save bad_save device.slots device.copies ram
  have hafter : after = replay device.copies _ := hcopies
  rw [hafter]
  generalize hall : (main board traffic count_save bad_save device.slots device.copies ram).2.saves =
    saves at hsaves
  have hcount : SaysSame device.copies (countAttempt (boot_state_store_load device.copies)) :=
    ⟨countAttempt_named h.named, fun _ => countAttempt_runnable⟩
  cases hsaves with
  | none => exact ⟨h, fun _ hr => hr⟩
  | count due => exact copiesTrue_once hg h (.count due) hcount count_save
  | bad exhausted =>
    exact copiesTrue_once hg h (.bad exhausted.1)
      ⟨mark_pending_bad_named hi exhausted.1 h.named,
        fun _ => mark_pending_bad_runnable hi exhausted.1 hmarked⟩ count_save
  | both due rejected returns =>
    have hquiet : ram (BOOT_UPDATE_REQUEST_ADDR board).toNat ≠ UPDATE_HANDOFF_MAGIC ∧
        traffic = false := by
      by_contra hn
      rw [update_saves_nothing hn] at hall
      cases hall
    have hroom : count_save.steps ≠ 0 ∨
        generationOf (boot_state_store_load device.copies) + 2 < 2 ^ 32 := by
      refine (hkeeps ⟨hquiet.1, hquiet.2, due, rejected, returns⟩).imp_left fun hfails h0 => ?_
      cases count_save with
      | Completes => cases h0
      | Fails steps => exact hfails (congrArg SaveOutcome.Fails h0)
      | PowerLost steps => cases returns
    have hp : (countAttempt (boot_state_store_load device.copies)).pending_slot ≠
        BOOT_STATE_NO_SLOT := by
      rw [countAttempt_pending_slot]
      exact due.1
    have hi' := recordStep_inRange (.count due) hi
    have hbad : SaysSame device.copies
        (boot_policy_mark_pending_bad (countAttempt (boot_state_store_load device.copies))) :=
      ⟨mark_pending_bad_named hi' hp hcount.1, fun slot =>
        (mark_pending_bad_runnable hi' hp (recordStep_marked (.count due) hi)).trans
          (hcount.2 slot)⟩
    exact copiesTrue_twice hg h (.count due) (mark_after_count due) hcount hbad count_save bad_save
      hroom

theorem boot_mode {ram : Ram} {traffic : Bool} {count_save bad_save : SaveOutcome}
    {session : BootUpdateSession}
    (h : (device.step board (.Boot ram traffic count_save bad_save)).mode = .Update session) :
    session = boot_update_session_init := by
  unfold Device.step modeOf at h
  dsimp only at h
  split at h
  · cases h
  · exact (Mode.Update.inj h).symm
  · cases h

theorem truthful_boot (h : Truthful board device) {ram : Ram} {traffic : Bool}
    {count_save bad_save : SaveOutcome}
    (hkeeps : KeepsTruth board device (.Boot ram traffic count_save bad_save)) :
    Truthful board (device.step board (.Boot ram traffic count_save bad_save)) := by
  obtain ⟨hcopies, hagree⟩ := boot_says_no_more h.reachable.store.good h.copies hkeeps
  constructor
  case reachable => exact step_reachable h.reachable _
  case copies => exact hcopies
  case images => exact fun slot hr => h.images slot (hagree slot hr)
  case target =>
    intro session hmode hactive
    rw [boot_mode hmode] at hactive
    cases hactive

theorem truthful_confirm (h : Truthful board device) {candidate : BootCandidate}
    (hmode : device.mode = .Running candidate) {save : SaveOutcome}
    (hkeeps : KeepsTruth board device (.Confirm save)) :
    Truthful board (device.step board (.Confirm save)) := by
  have hcopies := @confirm_step_copies board device candidate hmode save
  have hslots : (device.step board (.Confirm save)).slots = device.slots := by
    unfold Device.step
    rw [hmode]
  have hnot : ∀ session, (device.step board (.Confirm save)).mode ≠ .Update session := by
    intro session hs
    unfold Device.step at hs
    rw [hmode] at hs
    dsimp only at hs
    split at hs <;> cases hs
  have htarget : ∀ session, (device.step board (.Confirm save)).mode = .Update session →
      session.session_active = true → ¬ SaysRunnable (boot_state_store_load
        (device.step board (.Confirm save)).copies) session.target_slot :=
    fun session hs => absurd hs (hnot session)
  rcases confirm_cases device.copies save with hsame | ⟨hp, hsaved⟩
  · rw [hsame] at hcopies
    refine ⟨step_reachable h.reachable _, ?_, ?_, htarget⟩
    · rw [hcopies]
      exact h.copies
    · rw [hcopies, hslots]
      exact h.images
  · rw [hsaved] at hcopies
    have hvalid := pending_slot_valid (load_inRange _) hp
    obtain ⟨ha, hb⟩ := hkeeps candidate hmode hp
    refine ⟨step_reachable h.reachable _, ?_, ?_, htarget⟩
    · rw [hcopies]
      exact copiesTrue_save h.reachable.store.good h.copies (.confirm hp) (confirm_named hvalid)
        (fun slot hr => confirm_runnable hvalid (saysRunnable_valid hr)) save
    · rw [hslots]
      intro slot hr
      rcases saysRunnable_valid hr with rfl | rfl
      · exact ha
      · exact hb

/-! ## Every run -/

theorem truthful_packet (h : Truthful board device) {session : BootUpdateSession}
    (hmode : device.mode = .Update session) {delivery : Delivery}
    (hflash : LawfulFlash delivery.flash) (hkeeps : KeepsTruth board device (.Packet delivery)) :
    Truthful board (device.step board (.Packet delivery)) := by
  have hupdate : UpdateTrue board (device.updateState session) :=
    ⟨h.copies, h.images, h.target session hmode⟩
  have hnext := updateTrue_packet hflash h.reachable.store.good (h.reachable.session session hmode)
    hupdate (hkeeps session hmode)
  have hreachable := @step_reachable board device h.reachable (.Packet delivery)
  unfold Device.step at hreachable ⊢
  rw [hmode] at hreachable ⊢
  dsimp only at hreachable ⊢
  split at hreachable
  · rename_i hlost
    rw [if_pos hlost]
    exact ⟨hreachable, hnext.copies, hnext.images, nofun⟩
  · rename_i hlost
    rw [if_neg hlost]
    refine ⟨hreachable, hnext.copies, hnext.images, ?_⟩
    intro other hother hactive
    cases hother
    exact hnext.target hactive

/-- One event under its condition keeps the statuses true. -/
theorem truthful_step (h : Truthful board device) {event : Event}
    (hflash : ∀ delivery, event = .Packet delivery → LawfulFlash delivery.flash)
    (hkeeps : KeepsTruth board device event) : Truthful board (device.step board event) := by
  cases event with
  | Boot ram traffic count_save bad_save => exact truthful_boot h hkeeps
  | Packet delivery =>
    by_cases hmode : ∃ session, device.mode = .Update session
    · obtain ⟨session, hmode⟩ := hmode
      exact truthful_packet h hmode (hflash delivery rfl) hkeeps
    · rw [packet_ignored fun session hs => hmode ⟨session, hs⟩]
      exact h
  | Confirm save =>
    by_cases hmode : ∃ candidate, device.mode = .Running candidate
    · obtain ⟨candidate, hmode⟩ := hmode
      exact truthful_confirm h hmode hkeeps
    · rw [confirm_ignored fun candidate hc => hmode ⟨candidate, hc⟩]
      exact h

theorem truthful_run (slots : Slots) {events : List Event}
    (hflash : ∀ delivery, .Packet delivery ∈ events → LawfulFlash delivery.flash)
    (hkeep : KeepTruth board (firstDevice erasedCopies slots) events) :
    Truthful board ((firstDevice erasedCopies slots).run board events) := by
  induction events using List.reverseRecOn with
  | nil =>
    refine ⟨run_reachable .erased slots [], copiesTrue_erased, ?_, nofun⟩
    intro slot hr
    rw [show boot_state_store_load ((firstDevice erasedCopies slots).run board []).copies =
      boot_state_init_default from load_erased] at hr
    exact absurd hr default_says_nothing
  | append_singleton events event ih =>
    rw [run_snoc]
    refine truthful_step (ih ?_ ?_) ?_ (hkeep events event [] rfl)
    · exact fun delivery hd => hflash delivery (List.mem_append_left _ hd)
    · intro before other after hsplit
      exact hkeep before other (after ++ [event]) (by rw [hsplit, List.append_assoc]; rfl)
    · rintro delivery rfl
      exact hflash delivery (List.mem_append_right _ (List.mem_singleton_self _))

end

/-- From an erased region, whatever the slots hold: in every run whose steps all
meet the condition, the stored statuses are true in every state. -/
theorem statuses_true (board : Board) (slots : Slots) {events : List Event}
    (hflash : ∀ delivery, .Packet delivery ∈ events → LawfulFlash delivery.flash)
    (hkeep : KeepTruth board (firstDevice erasedCopies slots) events) :
    StatusesTrue board ((firstDevice erasedCopies slots).run board events) :=
  (truthful_run slots hflash hkeep).statuses

/-! ## The first update of an erased device -/

section
variable {board : Board} {device : Device}

/-- With nothing stored, no step can go against the record. -/
theorem keepsTruth_erased (h : device.copies = erasedCopies) (event : Event) :
    KeepsTruth board device event := by
  cases event with
  | Boot ram traffic count_save bad_save =>
    rintro ⟨-, -, due, -⟩
    rw [h] at due
    exact absurd erased_no_pending due.1
  | Packet delivery =>
    intro session hmode
    have hcopies : (device.updateState session).copies = erasedCopies := h
    constructor
    · intro _ _ hr
      rw [hcopies, load_erased] at hr
      exact absurd hr default_says_nothing
    · intro _ _ _ _ hpending
      rw [hcopies, load_erased] at hpending
      have hnamed := default_named _ (otherSlot_valid _) hpending
      rw [← load_erased, erased_no_pending] at hnamed
      have hvalid := otherSlot_valid (device.updateState session).session.target_slot
      rw [← hnamed] at hvalid
      exact absurd hvalid (by decide)
  | Confirm save =>
    intro _ _ hp
    rw [h] at hp
    exact absurd erased_no_pending hp

theorem ofUpdate_slots (state : UpdateState) : (ofUpdate state).slots = state.slots := rfl

theorem run_two (events : List Event) (first second : Event) :
    device.run board (events ++ [first, second]) =
      ((device.run board events).step board first).step board second := by
  rw [run_append]
  rfl

/-- A slot that is said to be valid and is erased. -/
theorem erased_untrue {slot : UInt32} (hslot : slot_is_valid slot)
    (hstatus : status_for_slot (boot_state_store_load device.copies) slot = BOOT_SLOT_STATUS_VALID)
    (herased : device.slots.image slot = imageOf []) : ¬ StatusesTrue board device := by
  intro h
  have haccepted := h.runnable slot hslot (Or.inl hstatus)
  unfold ImageAccepted at haccepted
  rw [herased] at haccepted
  exact app_image.erased_rejected (fun _ _ => rfl) haccepted

/-- A trial boot and its confirmation, two generations on. -/
theorem confirmed_boot {slot : UInt32} {count : Nat} (hslot : slot_is_valid slot)
    (h : AwaitsTrial board slot count device) (hroom : count + 2 < 2 ^ 32) :
    let last := (device.step board quietBoot).step board (.Confirm .Completes)
    boot_state_store_load last.copies =
        boot_policy_confirm_pending (countAttempt (boot_state_store_load device.copies)) ∧
      generationOf (boot_state_store_load last.copies) = count + 2 ∧
      last.slots = device.slots := by
  obtain ⟨hmode, hslots, hcopies, -⟩ := trial_boot h.pending h.due h.bootable
  have hstep : RecordStep (boot_state_store_load device.copies)
      (countAttempt (boot_state_store_load device.copies)) := .count h.due
  have hload : boot_state_store_load (device.step board quietBoot).copies =
      countAttempt (boot_state_store_load device.copies) := by
    rw [hcopies]
    refine load_completed hstep ?_
    rw [h.generation_eq]
    omega
  have hgen := recordStep_generationOf hstep (load_inRange _)
  rw [h.generation_eq, Nat.mod_eq_of_lt (by omega), ← hload] at hgen
  have hpending : (boot_state_store_load (device.step board quietBoot).copies).pending_slot ≠
      BOOT_STATE_NO_SLOT := by
    rw [hload, countAttempt_pending_slot, h.pending]
    exact slot_ne_none hslot
  obtain ⟨hconfirmed, hkept⟩ := @confirm_completes board (device.step board quietBoot) _ hmode
    hpending (by omega)
  have hlast := recordStep_generationOf (.confirm hpending) (load_inRange _)
  rw [hgen, Nat.mod_eq_of_lt (by omega), ← hconfirmed] at hlast
  refine ⟨?_, hlast, hkept.trans hslots⟩
  rw [hconfirmed, hload]

/-- The confirmation after one trial boot says that the other slot is valid. -/
theorem first_confirmation {slot : UInt32} (hslot : slot_is_valid slot)
    (h : AwaitsTrial board slot 1 device) :
    status_for_slot (boot_state_store_load
        ((device.step board quietBoot).step board (.Confirm .Completes)).copies) (otherSlot slot) =
        BOOT_SLOT_STATUS_VALID ∧
      ((device.step board quietBoot).step board (.Confirm .Completes)).slots = device.slots := by
  obtain ⟨hload, -, hslots⟩ := confirmed_boot hslot h (by decide)
  have hpending : (countAttempt (boot_state_store_load device.copies)).pending_slot = slot := by
    rw [countAttempt_pending_slot]
    exact h.pending
  have hspec := (confirm_pending_spec (by rw [hpending]; exact hslot :
    slot_is_valid (countAttempt (boot_state_store_load device.copies)).pending_slot)).2
  refine ⟨?_, hslots⟩
  rw [hload, ← hpending]
  exact hspec.other

end

/-- Up to its ACTIVATE, the update stores nothing. -/
theorem activation_keeps (image_crc32 : UInt32) :
    KeepTruth .F446 (firstDevice erasedCopies erasedSlots) (activationSession image_crc32) := by
  intro before event after hsplit
  refine keepsTruth_erased ?_ event
  cases before with
  | nil => rfl
  | cons boot before =>
    obtain ⟨hboot, hpackets⟩ := List.cons.inj hsplit
    obtain ⟨deliveries, rest, hall, rfl, hrest⟩ := List.map_eq_append_iff.mp hpackets
    obtain ⟨delivery, rest, rfl, -, -⟩ := List.map_eq_cons_iff.mp hrest
    have hquiet : ∀ d ∈ deliveries, d.packet.command ≠ UPDATE_CMD_ACTIVATE := by
      intro d hd
      have hin : deliveries <+: smallDownload image_crc32 := by
        refine List.prefix_of_prefix_length_le ⟨_, hall.symm⟩ (List.prefix_append _ _) ?_
        have hlength := congrArg List.length hall
        simp at hlength
        omega
      obtain ⟨packet, hpacket, rfl⟩ := List.mem_map.mp (hin.subset hd)
      exact run_update_quiet hpacket
    have hcompletes : ∀ d ∈ deliveries, d.save = .Completes := by
      intro d hd
      refine activation_completes image_crc32 d ?_
      rw [hall]
      exact List.mem_append_left _ hd
    rw [← hboot, session_run hcompletes]
    exact (processAll_saves hquiet _).1

/-- The first update of an erased device leaves slot A pending, and the statuses true. -/
theorem statuses_true_activated : ∃ image_crc32,
    let device := (firstDevice erasedCopies erasedSlots).run .F446
      (activationSession image_crc32)
    (boot_state_store_load device.copies).pending_slot = BOOT_SLOT_A ∧
      StatusesTrue .F446 device := by
  obtain ⟨image_crc32, hawaits⟩ := activationSession_run
  refine ⟨image_crc32, hawaits.pending, statuses_true .F446 erasedSlots ?_
    (activation_keeps image_crc32)⟩
  intro delivery hd
  rcases List.mem_cons.mp hd with hboot | hd
  · cases hboot
  · obtain ⟨d, hd, hsame⟩ := List.mem_map.mp hd
    cases hsame
    rcases List.mem_append.mp hd with hd | hd
    · exact plain_lawful _ _ delivery hd
    · rw [List.mem_singleton.mp hd]
      exact driver_lawful .F446 noFault

/-- After the first update is confirmed, the other slot is said to be valid: it is erased. -/
theorem first_confirmation_untrue : ∃ image_crc32,
    let device := (firstDevice erasedCopies erasedSlots).run .F446
      (activationSession image_crc32 ++ [quietBoot, .Confirm .Completes])
    status_for_slot (boot_state_store_load device.copies) BOOT_SLOT_B = BOOT_SLOT_STATUS_VALID ∧
      device.slots.image BOOT_SLOT_B = erasedSlots.image BOOT_SLOT_B ∧
      ¬ StatusesTrue .F446 device := by
  obtain ⟨image_crc32, version, hdevice, hactivated⟩ :=
    activation_run .erased erasedSlots
  have hgood := activation_good .erased erasedSlots (smallDownload image_crc32 ++
    [plain .F446 (bare UPDATE_CMD_ACTIVATE 7)])
  have hawaits := @awaitsTrial_activated .F446 _ _ _ _ _ _ _ hgood hactivated
  rw [provisioned_generation .erased] at hawaits
  have htarget : targetSlot erasedCopies = BOOT_SLOT_A := targetSlot_fresh
  have hkept := @small_slot_kept BOOT_SLOT_B erasedCopies erasedSlots image_crc32 (Or.inr rfl)
    (by rw [htarget]; decide)
  have herased : erasedSlots.image BOOT_SLOT_B = imageOf [] := rfl
  have hslots : ((firstDevice erasedCopies erasedSlots).run .F446
      (activationSession image_crc32)).slots.image BOOT_SLOT_B = imageOf [] := by
    rw [hdevice, ofUpdate_slots, hkept]
    exact herased
  rw [htarget, ← hdevice] at hawaits
  refine ⟨image_crc32, ?_⟩
  rw [run_two]
  generalize (firstDevice erasedCopies erasedSlots).run .F446 (activationSession image_crc32) =
    device at hslots hawaits ⊢
  obtain ⟨hstatus, hlast⟩ := first_confirmation (Or.inl rfl) hawaits
  rw [← hlast] at hslots
  exact ⟨hstatus, hslots, erased_untrue (Or.inr rfl) hstatus hslots⟩

end stm32_vibe.slot_statuses
