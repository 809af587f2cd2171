-- The device from reset to reset, with the application in between. An image that is
-- never healthy for long enough goes back by itself, and one that is healthy stays.
import Stm32Vibe.AppRuntime

namespace stm32_vibe.device_lives

open boot_state boot_policy boot_state_store save_history boot_runtime boot_main app_image device
  update_session can_transmit trial_boots trial_schedule handover started_slots app_runtime

/-! ## One life -/

/-- From a reset to the next: how the boot goes, the packets of the update loop if it ends
there, and the turns of the application if it starts one. -/
structure Life where
  ram : Ram
  traffic : Bool
  count_save : SaveOutcome
  bad_save : SaveOutcome
  deliveries : List Delivery
  can_results : Nat → CanResult
  watchdog_ok : Bool
  turns : List Turn

def Life.boot (life : Life) : Event :=
  .Boot life.ram life.traffic life.count_save life.bad_save

section
variable {σ : Type} (board : Board) (apps : BootCandidate → Application σ)

/-- The run of the application that a boot of the device starts. -/
def Life.runtime (life : Life) (device : Device) (candidate : BootCandidate) : Runtime σ :=
  let memory := (main board life.traffic life.count_save life.bad_save device.slots device.copies
    life.ram).2
  (start board (apps candidate) life.watchdog_ok memory.copies memory.ram).run board
    (apps candidate) life.can_results life.turns

def live (device : Device) (life : Life) : Device :=
  let booted := device.step board life.boot
  match booted.mode with
  | .Running candidate => (life.runtime board apps device candidate).over booted
  | .Update _ => booted.run board (life.deliveries.map .Packet)
  | .Off => booted

def lives (device : Device) (row : List Life) : Device := row.foldl (live board apps) device

/-- The images that the boots of some lives start, in order. -/
def livesStarts (device : Device) : List Life → List BootCandidate
  | [] => []
  | life :: row =>
    started (device.step board life.boot) life.boot ++ livesStarts (live board apps device life) row

end

/-- No update is downloaded, and time does not go back. -/
structure Life.Quiet (life : Life) : Prop where
  deliveries : ∀ delivery ∈ life.deliveries, Idle (.Packet delivery)
  count_save : life.count_save.Reliable
  ordered : (life.turns.map Turn.time).Pairwise (· ≤ ·)

/-! ## The application of a life -/

section
variable {σ : Type} {board : Board} {apps : BootCandidate → Application σ} {device : Device}
  {life : Life} {candidate : BootCandidate}

theorem boot_copies (device : Device) (life : Life) :
    (device.step board life.boot).copies =
      (main board life.traffic life.count_save life.bad_save device.slots device.copies
        life.ram).2.copies := rfl

theorem runtime_ran (hmode : (device.step board life.boot).mode = .Running candidate) :
    Ran board (apps candidate) (device.step board life.boot) life.turns
      (life.runtime board apps device candidate) := by
  unfold Life.runtime
  dsimp only
  rw [← boot_copies]
  exact started_ran hmode _ _ _

theorem live_running (hmode : (device.step board life.boot).mode = .Running candidate) :
    live board apps device life =
      (device.step board life.boot).run board
        ((life.runtime board apps device candidate).commits.map .Confirm) := by
  rw [(runtime_ran hmode).device_eq]
  unfold live
  dsimp only
  rw [hmode]

/-- An application that is never steady commits nothing. -/
theorem unsteady_commits (hmode : (device.step board life.boot).mode = .Running candidate)
    (hordered : (life.turns.map Turn.time).Pairwise (· ≤ ·))
    (hsick : ¬ Steady ((apps candidate).healths (apps candidate).init.1 life.turns)) :
    (life.runtime board apps device candidate).commits = [] := by
  by_contra hcommits
  exact hsick ((@runtime_ran σ board apps device life candidate hmode).steady hordered hcommits)

/-- With nothing pending, the commits of an application change nothing. -/
theorem settled_confirms {active : UInt32} (h : Settled board active device)
    (saves : List SaveOutcome) : device.run board (saves.map .Confirm) = device := by
  induction saves with
  | nil => rfl
  | cons save saves ih => rw [List.map_cons, run_cons, settled_confirm h save, ih]

end

/-! ## An image that is never healthy for long enough -/

section
variable {σ : Type} {board : Board} {apps : BootCandidate → Application σ}
  {slot active : UInt32} {device : Device}

theorem starts_append (events more : List Event) (device : Device) :
    starts board device (events ++ more) =
      starts board device events ++ starts board (device.run board events) more := by
  induction events generalizing device with
  | nil => rfl
  | cons event events ih =>
    rw [List.cons_append, starts, starts, ih, List.append_assoc]
    rfl

theorem starts_packets (deliveries : List Delivery) (device : Device) :
    starts board device (deliveries.map .Packet) = [] := by
  induction deliveries generalizing device with
  | nil => rfl
  | cons delivery deliveries ih =>
    rw [List.map_cons, starts, ih]
    rfl

/-- The update is unconfirmed, or it has gone back. -/
def Pending (board : Board) (slot active : UInt32) (device : Device) : Prop :=
  (∃ attempts, Unconfirmed board slot active attempts device) ∨ RolledBack board slot active device

/-- The image that a boot starts, and what it leaves. -/
theorem pending_boot (hslot : slot_is_valid slot) (hne : active ≠ slot)
    (h : Pending board slot active device) {event : Event} (hevent : Idle event) :
    started (device.step board event) event = [] ∨
      started (device.step board event) event = [candidateFor board slot true] ∨
      started (device.step board event) event = [candidateFor board active false] ∧
        RolledBack board slot active (device.step board event) := by
  rcases h with ⟨attempts, h⟩ | h
  · have hstep := unconfirmed_step hslot hne h hevent
    generalize started (device.step board event) event = images at hstep ⊢
    cases hstep with
    | waits same => exact Or.inl rfl
    | trial few next => exact Or.inr (Or.inl rfl)
    | lost few next cut => exact Or.inl rfl
    | rolled_back all next => exact Or.inr (Or.inr ⟨rfl, next⟩)
    | rolled_back_lost all next cut => exact Or.inl rfl
  · obtain ⟨hnext, hnone | hactive⟩ := rolledBack_step h hevent
    · exact Or.inl hnone
    · exact Or.inr (Or.inr ⟨hactive, hnext⟩)

/-- A quiet life of an image that is not steady is an idle run of the device. -/
theorem live_idle (hslot : slot_is_valid slot) (hne : active ≠ slot)
    (h : Pending board slot active device) {life : Life} (hlife : life.Quiet)
    (hsick : ¬ Steady ((apps (candidateFor board slot true)).healths
      (apps (candidateFor board slot true)).init.1 life.turns)) :
    ∃ events : List Event, (∀ event ∈ events, Idle event) ∧
      live board apps device life = device.run board events ∧
      starts board device events = started (device.step board life.boot) life.boot ∧
      (life.count_save = .Completes → ∀ event ∈ events, CountSaved event) := by
  have hboot : Idle life.boot := hlife.count_save
  have hsaved : life.count_save = .Completes → CountSaved life.boot := fun h => h
  have hone : starts board device [life.boot] =
      started (device.step board life.boot) life.boot := List.append_nil _
  cases hmode : (device.step board life.boot).mode with
  | Off =>
    refine ⟨[life.boot], List.forall_mem_singleton.mpr hboot, ?_, hone,
      fun h => List.forall_mem_singleton.mpr (hsaved h)⟩
    unfold live
    dsimp only
    rw [hmode]
    rfl
  | Update session =>
    refine ⟨life.boot :: life.deliveries.map .Packet, ?_, ?_, ?_, ?_⟩
    · refine List.forall_mem_cons.mpr ⟨hboot, fun event hmem => ?_⟩
      obtain ⟨delivery, hdelivery, rfl⟩ := List.mem_map.mp hmem
      exact hlife.deliveries delivery hdelivery
    · unfold live
      dsimp only
      rw [hmode]
      rfl
    · rw [starts, starts_packets, List.append_nil]
    · refine fun h => List.forall_mem_cons.mpr ⟨hsaved h, fun event hmem => ?_⟩
      obtain ⟨delivery, -, rfl⟩ := List.mem_map.mp hmem
      trivial
  | Running candidate =>
    refine ⟨[life.boot], List.forall_mem_singleton.mpr hboot, ?_, hone,
      fun h => List.forall_mem_singleton.mpr (hsaved h)⟩
    rw [live_running hmode]
    have hstarted := started_running hmode life.ram life.traffic life.count_save life.bad_save
    change started (device.step board life.boot) life.boot = [candidate] at hstarted
    rcases pending_boot hslot hne h hboot with hnone | htrial | ⟨hactive, hrolled⟩
    · rw [hnone] at hstarted
      cases hstarted
    · rw [htrial] at hstarted
      cases hstarted
      rw [unsteady_commits hmode hlife.ordered hsick]
      rfl
    · exact settled_confirms hrolled.settled _

/-- Quiet lives of such an image are an idle run. -/
theorem lives_idle (hslot : slot_is_valid slot) (hne : active ≠ slot)
    (h : Pending board slot active device) {row : List Life} (hrow : ∀ life ∈ row, life.Quiet)
    (hsick : ∀ life ∈ row, ¬ Steady ((apps (candidateFor board slot true)).healths
      (apps (candidateFor board slot true)).init.1 life.turns)) :
    ∃ events : List Event, (∀ event ∈ events, Idle event) ∧
      lives board apps device row = device.run board events ∧
      starts board device events = livesStarts board apps device row ∧
      ((∀ life ∈ row, life.count_save = .Completes) → ∀ event ∈ events, CountSaved event) := by
  induction row generalizing device with
  | nil =>
    exact ⟨[], fun event hmem => absurd hmem List.not_mem_nil, rfl, rfl,
      fun _ event hmem => absurd hmem List.not_mem_nil⟩
  | cons life row ih =>
    obtain ⟨events, hidle, hlive, hstarts, hsaved⟩ := live_idle hslot hne h
      (hrow life (List.mem_cons_self ..)) (hsick life (List.mem_cons_self ..))
    have hpending : Pending board slot active (live board apps device life) := by
      rw [hlive]
      rcases h with ⟨attempts, h⟩ | h
      · exact idle_run hslot hne h hidle
      · exact Or.inr (rolledBack_starts h hidle).1
    obtain ⟨more, hmore, hlives, hlast, hcounted⟩ := ih hpending
      (fun other hmem => hrow other (List.mem_cons_of_mem _ hmem))
      (fun other hmem => hsick other (List.mem_cons_of_mem _ hmem))
    refine ⟨events ++ more, ?_, ?_, ?_, ?_⟩
    · exact fun event hmem => (List.mem_append.mp hmem).elim (hidle event) (hmore event)
    · rw [run_append, ← hlive]
      exact hlives
    · rw [starts_append, hstarts, ← hlive, hlast]
      rfl
    · exact fun hall event hmem => (List.mem_append.mp hmem).elim
        (hsaved (hall life (List.mem_cons_self ..)) event)
        (hcounted (fun other h => hall other (List.mem_cons_of_mem _ h)) event)

end

/-- An image that is never healthy over the stabilization interval goes back by itself.
Whatever else the lives of the device are, short of another download, they start it at
most as often as attempts are left and then the active image for good. If no save of an
attempt is cut, they start it exactly so often. -/
theorem unhealthy_goes_back {σ : Type} (board : Board) {slot active : UInt32} {attempts : Nat}
    {device : Device} (hslot : slot_is_valid slot) (hne : active ≠ slot)
    (h : Unconfirmed board slot active attempts device) {apps : BootCandidate → Application σ}
    {row : List Life} (hrow : ∀ life ∈ row, life.Quiet)
    (hsick : ∀ life ∈ row, ¬ Steady ((apps (candidateFor board slot true)).healths
      (apps (candidateFor board slot true)).init.1 life.turns)) :
    let images := livesStarts board apps device row
    let state := boot_state_store_load (lives board apps device row).copies
    ∃ trials ≤ 3 - attempts,
      images = List.replicate (min trials images.length) (candidateFor board slot true) ++
          List.replicate (images.length - trials) (candidateFor board active false) ∧
        (trials < images.length → state.pending_slot = BOOT_STATE_NO_SLOT ∧
          status_for_slot state slot = BOOT_SLOT_STATUS_BAD ∧ state.active_slot = active) ∧
        ((∀ life ∈ row, life.count_save = .Completes) → trials = 3 - attempts) := by
  obtain ⟨events, hidle, hlives, hstarts, hsaved⟩ :=
    @lives_idle σ board apps slot active device hslot hne (Or.inl ⟨attempts, h⟩) row hrow hsick
  obtain ⟨trials, hle, hschedule, hall⟩ := unconfirmed_starts hslot hne h hidle
  rw [hstarts, ← hlives] at hschedule
  refine ⟨trials, hle, hschedule.images_eq, fun hmore => ?_, fun hcompletes =>
    hall (hsaved hcompletes)⟩
  have hrolled := hschedule.rolled_back hmore
  exact ⟨hrolled.settled.none_pending, hrolled.bad, hrolled.settled.active_slot⟩

def smallLife : Life where
  ram := fun _ => 0
  traffic := false
  count_save := .Completes
  bad_save := .Completes
  deliveries := []
  can_results := fun _ => .Ok
  watchdog_ok := true
  turns := smallTurns

theorem smallLife_quiet : smallLife.Quiet where
  deliveries := fun delivery hmem => absurd hmem List.not_mem_nil
  count_save := completes_reliable
  ordered := by decide

theorem sick_unsteady : ¬ Steady ((smallApp false).healths () smallLife.turns) := by
  rintro ⟨before, first, between, last, after, hsplit, hhealthy, -⟩
  have hsick : ∀ report ∈ (smallApp false).healths () smallLife.turns, report.2 = false := by decide
  have hfirst := hhealthy first (List.mem_cons_self ..)
  rw [hsick first (by rw [hsplit]; simp)] at hfirst
  cases hfirst

/-- Five lives of an update whose application is never healthy. -/
theorem unhealthy_goes_back_five : ∃ image_crc32,
    let device := (firstDevice (image_for_mode .ConfirmedA) smallSlots).run .F446
      (activationSession image_crc32)
    let apps : BootCandidate → Application Unit :=
      fun candidate => smallApp (!candidate.boot_pending)
    let row := List.replicate 5 smallLife
    let images := livesStarts .F446 apps device row
    let state := boot_state_store_load (lives .F446 apps device row).copies
    ∃ trials ≤ 3 - 0,
      images = List.replicate (min trials images.length) (candidateFor .F446 BOOT_SLOT_B true) ++
          List.replicate (images.length - trials) (candidateFor .F446 BOOT_SLOT_A false) ∧
        (trials < images.length → state.pending_slot = BOOT_STATE_NO_SLOT ∧
          status_for_slot state BOOT_SLOT_B = BOOT_SLOT_STATUS_BAD ∧
          state.active_slot = BOOT_SLOT_A) ∧
        ((∀ life ∈ row, life.count_save = .Completes) → trials = 3 - 0) := by
  obtain ⟨image_crc32, h⟩ := unconfirmed_activated
  refine ⟨image_crc32, unhealthy_goes_back .F446 (Or.inr rfl) (by decide) h ?_ ?_⟩
  · exact fun life hmem => (List.eq_of_mem_replicate hmem).symm ▸ smallLife_quiet
  · exact fun life hmem => (List.eq_of_mem_replicate hmem).symm ▸ sick_unsteady

/-! ## An image that is healthy -/

section
variable {σ : Type} {board : Board} {apps : BootCandidate → Application σ} {device : Device}
  {life : Life} {candidate : BootCandidate}

/-- What the application reads of its boot is what the bootloader booted. -/
theorem boot_info_of_jump {slots : Slots} {copies : Copies} {ram : Ram} {traffic : Bool}
    {count_save bad_save : SaveOutcome} {vector_base stack_pointer reset_handler got_base : UInt32}
    (h : (main board traffic count_save bad_save slots copies ram).1 =
      .Jump candidate vector_base stack_pointer reset_handler got_base) :
    ∃ boot_attempt, platform_boot_info_init board
        (main board traffic count_save bad_save slots copies ram).2.ram =
      some
        { image_base := candidate.image_base
          image_size :=
            (app_image_validate (slots.image candidate.slot) (APP_SLOT_SIZE board)).image_size
          slot := candidate.slot
          boot_attempt
          pending := candidate.boot_pending } := by
  obtain ⟨last, saved, hjumps⟩ := jumps_of_main h
  obtain ⟨hslot, -⟩ := bootPath_candidate (load_inRange copies) hjumps.path
  obtain ⟨fslot, fbase, fsize, fstate, fattempt⟩ := @handoff_fields board slots candidate last
  have hram : (main board traffic count_save bad_save slots copies ram).2.ram =
      preparedRam board slots candidate last ram := by rw [main_of_jumps hjumps]
  have hvalid := @handoff_valid board slots candidate hslot hjumps.bootable.image last
  refine ⟨if candidate.boot_pending then last.pending_attempts else 0, ?_⟩
  unfold platform_boot_info_init
  rw [hram, prepared_handoff hjumps.bootable.relocation, platform_boot_info_init_from,
    if_neg (not_not.mpr hvalid), fslot, fbase, fsize, fstate, fattempt]
  cases candidate.boot_pending <;> rfl

theorem jump_of_running (hmode : (device.step board life.boot).mode = .Running candidate) :
    ∃ vector_base stack_pointer reset_handler got_base,
      (main board life.traffic life.count_save life.bad_save device.slots device.copies
        life.ram).1 = .Jump candidate vector_base stack_pointer reset_handler got_base := by
  change modeOf (main board life.traffic life.count_save life.bad_save device.slots device.copies
    life.ram).1 = .Running candidate at hmode
  generalize (main board life.traffic life.count_save life.bad_save device.slots device.copies
    life.ram).1 = ending at hmode ⊢
  cases ending with
  | Jump jumped vector_base stack_pointer reset_handler got_base =>
    cases hmode
    exact ⟨vector_base, stack_pointer, reset_handler, got_base, rfl⟩
  | UpdateMode => cases hmode
  | PowerLost => cases hmode

/-- The application gets to its loop. -/
theorem start_goes (hmode : (device.step board life.boot).mode = .Running candidate)
    (hinit : (apps candidate).init.2 = true) (copies : Copies) :
    (start board (apps candidate) true copies
      (main board life.traffic life.count_save life.bad_save device.slots device.copies
        life.ram).2.ram).stop = none := by
  obtain ⟨_, _, _, _, hjump⟩ := jump_of_running hmode
  obtain ⟨boot_attempt, hinfo⟩ := boot_info_of_jump hjump
  unfold start
  dsimp only
  rw [hinfo, hinit]
  rfl

/-- Without requests there is no reset for an update. -/
theorem unasked_stays (hprocess : ∀ now_ms state, ((apps candidate).process now_ms state).2 = false)
    (hrx : ∀ turn ∈ life.turns, turn.rx = ([], [])) :
    (life.runtime board apps device candidate).stop ≠ some .UpdateReset := by
  unfold Life.runtime
  dsimp only
  apply run_unasked hprocess (by rfl)
  · unfold start
    dsimp only
    split_ifs <;> simp
  · exact hrx

/-- An application that stabilizes, with saves that complete, commits. -/
theorem stabilizes_commits (hmode : (device.step board life.boot).mode = .Running candidate)
    (hinit : (apps candidate).init.2 = true) (hwatchdog : life.watchdog_ok = true)
    (hsaves : ∀ turn ∈ life.turns, turn.save = .Completes)
    (hstays : (life.runtime board apps device candidate).stop ≠ some .UpdateReset)
    (hhealthy : Stabilizes ((apps candidate).healths (apps candidate).init.1 life.turns)) :
    ∃ rest, (life.runtime board apps device candidate).commits = .Completes :: rest := by
  have hran := @runtime_ran σ board apps device life candidate hmode
  have hgoes : (life.runtime board apps device candidate).stop = none := by
    unfold Life.runtime at hstays ⊢
    dsimp only at hstays ⊢
    rw [hwatchdog, ← boot_copies] at hstays ⊢
    exact run_goes (start_ran true _) hmode (start_goes hmode hinit _)
      (fun turn hmem => by rw [hsaves turn hmem]; rfl) hstays
  rw [← (hran.current hgoes).1] at hhealthy
  obtain ⟨save, rest, hcommits⟩ :=
    List.exists_cons_of_ne_nil (hran.called.mpr (stabilizes_called hhealthy))
  obtain ⟨turn, hturn, hsave⟩ := hran.commits_from save (by rw [hcommits]; simp)
  rw [hsaves turn hturn] at hsave
  exact ⟨rest, by rw [hcommits, hsave]⟩

/-- The events of a life. -/
theorem live_run (device : Device) (life : Life) : ∃ events : List Event,
    live board apps device life = device.run board events ∧
      ((∀ delivery ∈ life.deliveries, Harmless (.Packet delivery)) →
        ∀ event ∈ events, Harmless event) := by
  cases hmode : (device.step board life.boot).mode with
  | Off =>
    refine ⟨[life.boot], ?_, fun _ => List.forall_mem_singleton.mpr trivial⟩
    unfold live
    dsimp only
    rw [hmode]
    rfl
  | Update session =>
    refine ⟨life.boot :: life.deliveries.map .Packet, ?_, fun h => ?_⟩
    · unfold live
      dsimp only
      rw [hmode]
      rfl
    · refine List.forall_mem_cons.mpr ⟨trivial, fun event hmem => ?_⟩
      obtain ⟨delivery, hdelivery, rfl⟩ := List.mem_map.mp hmem
      exact h delivery hdelivery
  | Running candidate =>
    refine ⟨life.boot :: (life.runtime board apps device candidate).commits.map .Confirm,
      live_running hmode, fun h => ?_⟩
    refine List.forall_mem_cons.mpr ⟨trivial, fun event hmem => ?_⟩
    obtain ⟨save, -, rfl⟩ := List.mem_map.mp hmem
    trivial

/-- A settled device stays so over its lives. -/
theorem settled_lives {active : UInt32} (h : Settled board active device) {row : List Life}
    (hrow : ∀ life ∈ row, ∀ delivery ∈ life.deliveries, Harmless (.Packet delivery)) :
    StaysSettled board active device (lives board apps device row) := by
  induction row generalizing device with
  | nil => exact ⟨h, rfl, rfl, rfl⟩
  | cons life row ih =>
    obtain ⟨events, hlive, hharmless⟩ := @live_run σ board apps device life
    have hfirst := settled_steps h (hharmless (hrow life (List.mem_cons_self ..)))
    rw [← hlive] at hfirst
    have hrest := ih hfirst.settled fun other hmem => hrow other (List.mem_cons_of_mem _ hmem)
    exact ⟨hrest.settled, hrest.copies_eq.trans hfirst.copies_eq,
      hrest.saves_eq.trans hfirst.saves_eq, hrest.image_eq.trans hfirst.image_eq⟩

end

/-- A pending image that is healthy for long enough in one of its trial boots stays. In
the lives before, it was not; after it, whatever happens but an ACTIVATE, it is the active
image, unchanged, and what every boot starts that nobody disturbs. -/
theorem healthy_stays {σ : Type} (board : Board) {slot active : UInt32} {attempts : Nat}
    {device : Device} (hslot : slot_is_valid slot) (hne : active ≠ slot)
    (h : Unconfirmed board slot active attempts device) {apps : BootCandidate → Application σ}
    {row : List Life} (hrow : ∀ life ∈ row, life.Quiet)
    (hsick : ∀ life ∈ row, ¬ Steady ((apps (candidateFor board slot true)).healths
      (apps (candidateFor board slot true)).init.1 life.turns))
    {life : Life} (hcount : life.count_save.Reliable)
    (hmode : ((lives board apps device row).step board life.boot).mode =
      .Running (candidateFor board slot true))
    (hinit : (apps (candidateFor board slot true)).init.2 = true)
    (hwatchdog : life.watchdog_ok = true) (hsaves : ∀ turn ∈ life.turns, turn.save = .Completes)
    (hstays : (life.runtime board apps (lives board apps device row)
      (candidateFor board slot true)).stop ≠ some .UpdateReset)
    (hhealthy : Stabilizes ((apps (candidateFor board slot true)).healths
      (apps (candidateFor board slot true)).init.1 life.turns))
    {later : List Life}
    (hlater : ∀ life ∈ later, ∀ delivery ∈ life.deliveries, Harmless (.Packet delivery)) :
    let after := lives board apps device (row ++ life :: later)
    (boot_state_store_load after.copies).active_slot = slot ∧
      after.slots.image slot = device.slots.image slot ∧
      ∀ ram count_save bad_save, NoRequest board ram →
        (after.step board (.Boot ram false count_save bad_save)).mode =
          .Running (candidateFor board slot false) := by
  obtain ⟨events, hidle, hlives, -, -⟩ :=
    @lives_idle σ board apps slot active device hslot hne (Or.inl ⟨attempts, h⟩) row hrow hsick
  have hsplit : lives board apps device (row ++ life :: later) =
      lives board apps (live board apps (lives board apps device row) life) later := by
    unfold lives
    rw [List.foldl_append, List.foldl_cons]
  obtain ⟨rest, hcommits⟩ := stabilizes_commits hmode hinit hwatchdog hsaves hstays hhealthy
  have hlive := @live_running σ board apps _ life _ hmode
  rw [hcommits, List.map_cons, run_cons] at hlive
  rw [hlives] at hmode hlive hsplit
  obtain ⟨n, htrial⟩ := unconfirmed_of_trial hslot hne (idle_run hslot hne h hidle) hcount hmode
  obtain ⟨hsettled, hslots⟩ := settled_of_confirm hslot htrial hmode
  change _ = ((_ : Device).step board (.Confirm .Completes)).run board _ at hlive
  rw [show (device.run board events).step board life.boot = (device.run board events).step board
    (.Boot life.ram life.traffic life.count_save life.bad_save) from rfl,
    settled_confirms hsettled] at hlive
  rw [← hlive] at hsettled hslots
  have hstays := @settled_lives σ board apps _ slot hsettled later hlater
  dsimp only
  rw [hsplit]
  refine ⟨hstays.settled.active_slot, ?_, fun ram count_save bad_save hr =>
    (settled_boot hstays.settled hr count_save bad_save).1⟩
  rw [hstays.image_eq, hslots]
  exact congrArg (·.image slot) (idle_slots hidle)

theorem first_life {board : Board} {slot active : UInt32} {device : Device}
    (hslot : slot_is_valid slot) (h : Unconfirmed board slot active 0 device)
    (apps : BootCandidate → Application Unit) :
    ((lives board apps device []).step board smallLife.boot).mode =
      .Running (candidateFor board slot true) := by
  have hmode := first_trial hslot h
  rw [List.nil_append] at hmode
  unfold Device.run at hmode
  rw [List.foldl_cons, List.foldl_nil] at hmode
  unfold lives Life.boot smallLife
  rw [List.foldl_nil]
  exact hmode

/-- One life of an update whose application is always healthy. -/
theorem healthy_stays_small : ∃ image_crc32,
    let device := (firstDevice (image_for_mode .ConfirmedA) smallSlots).run .F446
      (activationSession image_crc32)
    let after := lives .F446 (fun _ => smallApp true) device ([] ++ smallLife :: [])
    (boot_state_store_load after.copies).active_slot = BOOT_SLOT_B ∧
      after.slots.image BOOT_SLOT_B = device.slots.image BOOT_SLOT_B ∧
      ∀ ram count_save bad_save, NoRequest .F446 ram →
        (after.step .F446 (.Boot ram false count_save bad_save)).mode =
          .Running (candidateFor .F446 BOOT_SLOT_B false) := by
  obtain ⟨image_crc32, h⟩ := unconfirmed_activated
  refine ⟨image_crc32, ?_⟩
  dsimp only
  generalize (firstDevice (image_for_mode .ConfirmedA) smallSlots).run .F446
    (activationSession image_crc32) = device at h ⊢
  refine @healthy_stays Unit .F446 BOOT_SLOT_B BOOT_SLOT_A 0 device (Or.inr rfl) (by decide) h
    (fun _ => smallApp true) [] (List.forall_mem_nil _) (List.forall_mem_nil _) smallLife
    completes_reliable (first_life (Or.inr rfl) h _) rfl rfl ?_ ?_ ?_ [] (List.forall_mem_nil _)
  · simp [smallLife, smallTurns]
  · exact unasked_stays (fun _ _ => rfl) (by simp [smallLife, smallTurns])
  · exact ⟨[], (0, true), [], (5000, true), [], rfl, by simp, by simp, by decide, by decide⟩

end stm32_vibe.device_lives
