-- The main loop of the application. Each turn polls the update agent, runs the
-- application and asks for its health: the watchdog is fed in the healthy turns only,
-- and after enough of them the boot is confirmed.
import Stm32Vibe.BootConfirmation
import Stm32Vibe.FullUpdate

namespace stm32_vibe.app_runtime

open boot_state boot_policy boot_state_store save_history boot_runtime boot_main device update_can
  can_transmit
  update_agent full_update
open boot_confirmation hiding poll

/-! ## The health supervisor -/

structure HealthSupervisor where
  last_progress_ms : UInt32
  max_progress_age_ms : UInt32
  application_healthy : Bool
  progress_seen : Bool
deriving DecidableEq, Repr

def health_supervisor_init (max_progress_age_ms : UInt32) : HealthSupervisor where
  last_progress_ms := 0
  max_progress_age_ms := max_progress_age_ms
  application_healthy := false
  progress_seen := false

def health_supervisor_report_application (supervisor : HealthSupervisor) (healthy : Bool) :
    HealthSupervisor :=
  { supervisor with application_healthy := healthy }

def health_supervisor_report_progress (supervisor : HealthSupervisor) (now_ms : UInt32) :
    HealthSupervisor :=
  { supervisor with last_progress_ms := now_ms, progress_seen := true }

def health_supervisor_may_feed_watchdog (supervisor : HealthSupervisor) (now_ms : UInt32) :
    Bool :=
  if supervisor.application_healthy = false ∨ supervisor.progress_seen = false ∨
      supervisor.max_progress_age_ms = 0 then false
  else now_ms - supervisor.last_progress_ms ≤ supervisor.max_progress_age_ms

/-! ## The boot information -/

/-- `platform_boot_info_t`. -/
structure BootInfo where
  image_base : UInt32
  image_size : UInt32
  slot : UInt32
  boot_attempt : UInt32
  pending : Bool
deriving DecidableEq, Repr

/-- What `platform_boot_info_get` gives after it, if it returned true. -/
def platform_boot_info_init_from (handoff : BootHandoff) : Option BootInfo :=
  if ¬ boot_handoff_is_valid handoff then none
  else
    some
      { image_base := handoff.image_base
        image_size := handoff.image_size
        slot := handoff.slot
        boot_attempt := handoff.boot_attempt
        pending := handoff.state = BOOT_HANDOFF_PENDING }

def platform_boot_info_init (board : Board) (ram : Ram) : Option BootInfo :=
  platform_boot_info_init_from (boot_handoff_shared board ram)

/-! ## The loop -/

/-- `application.h`: what `app_init` leaves, and whether it returns `APP_INIT_OK`; what
`app_process` does, and whether it calls `request_update_reset`; and `app_is_healthy`. -/
structure Application (σ : Type) where
  init : σ × Bool
  process : UInt32 → σ → σ × Bool
  is_healthy : σ → Bool

/-- Why nothing runs any more. -/
inductive Stop where
  /-- `main` is in one of its empty loops, after this trace. -/
  | Stuck (message : String)
  | UpdateReset
  | PowerLost
deriving DecidableEq, Repr

/-- The variables of `main`, and what it did: the ends of the saves of the commits, the
reports of the application's health, and the times at which it fed the watchdog. -/
structure Runtime (σ : Type) where
  app : σ
  agent : UpdateAgent
  health_supervisor : HealthSupervisor
  boot_confirmation : BootConfirmation
  copies : Copies
  ram : Ram
  commits : List SaveOutcome
  saves : List (BootStateRecord × SaveOutcome)
  reports : List Poll
  refreshes : List Nat
  stop : Option Stop

/-- One turn: its time in milliseconds since the start, unbounded, what the transports
have, and how a save ends if there is one. -/
structure Turn where
  time : Nat
  rx : List UInt8 × List CanFrame
  save : SaveOutcome

def WATCHDOG_TIMEOUT_MS : UInt32 := 4000
def BOOT_CONFIRM_STABILIZATION_MS : UInt32 := 5000

section
variable {σ : Type} (board : Board) (app : Application σ) (results : Nat → CanResult)

/-- `main` up to its loop. What the steps after an empty loop would have set up is
never looked at. -/
def start (watchdog_ok : Bool) (copies : Copies) (ram : Ram) : Runtime σ where
  app := app.init.1
  agent := update_agent_init .NoReturn
  health_supervisor := health_supervisor_init (WATCHDOG_TIMEOUT_MS / 2)
  boot_confirmation := boot_confirmation_init BOOT_CONFIRM_STABILIZATION_MS true
  copies := copies
  ram := ram
  commits := []
  saves := []
  reports := []
  refreshes := []
  stop :=
    if platform_boot_info_init board ram = none then some (.Stuck "BOOT handoff invalid")
    else if app.init.2 = false then some (.Stuck "APP init failed")
    else if watchdog_ok = false then some (.Stuck "WATCHDOG init failed")
    else none

/-- The poll of the confirmation, with its call of `platform_confirm_pending_boot`. -/
def confirm (healthy : Bool) (turn : Turn) (runtime : Runtime σ) : Runtime σ :=
  let commit := platform_confirm_pending_boot runtime.copies turn.save
  let polled := boot_confirmation_poll runtime.boot_confirmation (UInt32.ofNat turn.time) healthy
    commit.1
  let runtime :=
    { runtime with
      boot_confirmation := polled.1
      reports := runtime.reports ++ [⟨turn.time, healthy, commit.1⟩] }
  if polled.2 = false then runtime
  else
    { runtime with
      copies := commit.2.1
      commits := runtime.commits ++ [turn.save]
      saves := runtime.saves ++ commit.2.2
      stop := if commit.2.2 ≠ [] ∧ turn.save.isPowerLost then some .PowerLost else none }

/-- `watchdog_refresh`, if the supervisor lets it. -/
def feed (turn : Turn) (runtime : Runtime σ) : Runtime σ :=
  if runtime.stop = none ∧
      health_supervisor_may_feed_watchdog runtime.health_supervisor (UInt32.ofNat turn.time) then
    { runtime with refreshes := runtime.refreshes ++ [turn.time] }
  else runtime

/-- A turn after `app_process`. -/
def attend (turn : Turn) (runtime : Runtime σ) : Runtime σ :=
  let healthy := app.is_healthy runtime.app
  let supervisor := health_supervisor_report_application runtime.health_supervisor healthy
  let supervisor := health_supervisor_report_progress supervisor (UInt32.ofNat turn.time)
  feed turn (confirm healthy turn { runtime with health_supervisor := supervisor })

/-- `platform_request_update_reset`. -/
def requestUpdateReset (runtime : Runtime σ) : Runtime σ :=
  { runtime with ram := update_handoff_request board runtime.ram, stop := some .UpdateReset }

def Runtime.turn (runtime : Runtime σ) (turn : Turn) : Runtime σ :=
  if runtime.stop ≠ none then runtime
  else
    let agent := update_agent_poll results UPDATE_CAN_NODE_ID runtime.agent turn.rx
    let runtime := { runtime with agent }
    if agent.halted then requestUpdateReset board runtime
    else
      let processed := app.process (UInt32.ofNat turn.time) runtime.app
      let runtime := { runtime with app := processed.1 }
      if processed.2 then requestUpdateReset board runtime else attend app turn runtime

def Runtime.run (runtime : Runtime σ) (turns : List Turn) : Runtime σ :=
  turns.foldl (Runtime.turn board app results) runtime

end

/-! ## One turn -/

section
variable {σ : Type} {board : Board} {app : Application σ} {results : Nat → CanResult}
  {runtime : Runtime σ} {turn : Turn}

/-- What a turn does to a runtime that has not stopped: a reset for an update, which
changes nothing that is saved or fed, or the calls after `app_process`. -/
theorem turn_cases (hgoes : runtime.stop = none) :
    (∃ agent state, Runtime.turn board app results runtime turn =
        requestUpdateReset board { runtime with agent, app := state }) ∨
      ∃ agent, Runtime.turn board app results runtime turn = attend app turn
        { runtime with agent, app := (app.process (UInt32.ofNat turn.time) runtime.app).1 } := by
  unfold Runtime.turn
  rw [if_neg (not_not.mpr hgoes)]
  dsimp only
  split_ifs
  · exact Or.inl ⟨_, runtime.app, rfl⟩
  · exact Or.inl ⟨_, _, rfl⟩
  · exact Or.inr ⟨_, rfl⟩

theorem turn_stopped (hstopped : runtime.stop ≠ none) :
    Runtime.turn board app results runtime turn = runtime := by
  rw [Runtime.turn, if_pos hstopped]

/-- The supervisor lets the watchdog be fed exactly when the application is healthy: the
progress is never old, as it is reported in the same turn. -/
theorem may_feed_iff {supervisor : HealthSupervisor} (hage : supervisor.max_progress_age_ms ≠ 0)
    (healthy : Bool) (now_ms : UInt32) :
    health_supervisor_may_feed_watchdog
      (health_supervisor_report_progress
        (health_supervisor_report_application supervisor healthy) now_ms) now_ms = healthy := by
  unfold health_supervisor_may_feed_watchdog health_supervisor_report_progress
    health_supervisor_report_application
  cases healthy
  · simp
  · simp [hage]

/-- The parts of a turn after `app_process`. -/
structure Attended (app : Application σ) (turn : Turn) (runtime after : Runtime σ) : Prop where
  app_eq : after.app = runtime.app
  confirmation : after.boot_confirmation =
    (boot_confirmation.poll runtime.boot_confirmation
      ⟨turn.time, app.is_healthy runtime.app,
        (platform_confirm_pending_boot runtime.copies turn.save).1⟩).1
  reports : after.reports = runtime.reports ++
    [⟨turn.time, app.is_healthy runtime.app,
      (platform_confirm_pending_boot runtime.copies turn.save).1⟩]
  supervisor : after.health_supervisor.max_progress_age_ms =
    runtime.health_supervisor.max_progress_age_ms
  /-- The commit function is not called, or called. -/
  commit :
    let called := (boot_confirmation.poll runtime.boot_confirmation
      ⟨turn.time, app.is_healthy runtime.app,
        (platform_confirm_pending_boot runtime.copies turn.save).1⟩).2
    let commit := platform_confirm_pending_boot runtime.copies turn.save
    (called = false ∧ after.commits = runtime.commits ∧ after.copies = runtime.copies ∧
        after.saves = runtime.saves ∧ after.stop = none) ∨
      called = true ∧ after.commits = runtime.commits ++ [turn.save] ∧
        after.copies = commit.2.1 ∧ after.saves = runtime.saves ++ commit.2.2 ∧
        after.stop =
          if commit.2.2 ≠ [] ∧ turn.save.isPowerLost then some .PowerLost else none
  refreshes : after.refreshes = runtime.refreshes ++
    if after.stop = none ∧ app.is_healthy runtime.app then [turn.time] else []

theorem feed_same (turn : Turn) (runtime : Runtime σ) :
    let after := feed turn runtime
    after.app = runtime.app ∧ after.boot_confirmation = runtime.boot_confirmation ∧
      after.reports = runtime.reports ∧ after.health_supervisor = runtime.health_supervisor ∧
      after.commits = runtime.commits ∧ after.copies = runtime.copies ∧
      after.saves = runtime.saves ∧ after.stop = runtime.stop := by
  unfold feed
  split_ifs <;> exact ⟨rfl, rfl, rfl, rfl, rfl, rfl, rfl, rfl⟩

theorem confirm_attends (healthy : Bool) (hgoes : runtime.stop = none) :
    let commit := platform_confirm_pending_boot runtime.copies turn.save
    let polled := boot_confirmation.poll runtime.boot_confirmation ⟨turn.time, healthy, commit.1⟩
    let after := confirm healthy turn runtime
    after.app = runtime.app ∧ after.health_supervisor = runtime.health_supervisor ∧
      after.refreshes = runtime.refreshes ∧ after.boot_confirmation = polled.1 ∧
      after.reports = runtime.reports ++ [⟨turn.time, healthy, commit.1⟩] ∧
      ((polled.2 = false ∧ after.commits = runtime.commits ∧ after.copies = runtime.copies ∧
          after.saves = runtime.saves ∧ after.stop = none) ∨
        polled.2 = true ∧ after.commits = runtime.commits ++ [turn.save] ∧
          after.copies = commit.2.1 ∧ after.saves = runtime.saves ++ commit.2.2 ∧
          after.stop =
            if commit.2.2 ≠ [] ∧ turn.save.isPowerLost then some .PowerLost else none) := by
  intro commit polled after
  have hafter : after = confirm healthy turn runtime := rfl
  unfold confirm at hafter
  change after = if polled.2 = false then _ else _ at hafter
  cases hcalled : polled.2 with
  | false =>
    rw [if_pos hcalled] at hafter
    rw [hafter]
    exact ⟨rfl, rfl, rfl, rfl, rfl, Or.inl ⟨rfl, rfl, rfl, rfl, hgoes⟩⟩
  | true =>
    rw [if_neg (by rw [hcalled]; decide)] at hafter
    rw [hafter]
    exact ⟨rfl, rfl, rfl, rfl, rfl, Or.inr ⟨rfl, rfl, rfl, rfl, rfl⟩⟩

theorem attend_attended (hage : runtime.health_supervisor.max_progress_age_ms ≠ 0)
    (hgoes : runtime.stop = none) : Attended app turn runtime (attend app turn runtime) := by
  unfold attend
  generalize hhealthy : app.is_healthy runtime.app = healthy
  dsimp only
  generalize hreported : health_supervisor_report_progress (health_supervisor_report_application
    runtime.health_supervisor healthy) (UInt32.ofNat turn.time) = supervisor
  obtain ⟨happ, hsupervisor, hrefreshes, hconfirmation, hreports, hcommit⟩ :=
    @confirm_attends σ { runtime with health_supervisor := supervisor } turn healthy hgoes
  generalize confirm healthy turn { runtime with health_supervisor := supervisor } = confirmed at *
  obtain ⟨happ', hconfirmation', hreports', hsupervisor', hcommits', hcopies', hsaves', hstop'⟩ :=
    feed_same turn confirmed
  have hfeeds : health_supervisor_may_feed_watchdog confirmed.health_supervisor
      (UInt32.ofNat turn.time) = healthy := by
    rw [hsupervisor, ← hreported]
    exact may_feed_iff hage healthy _
  subst hhealthy
  refine ⟨happ'.trans happ, hconfirmation'.trans hconfirmation, hreports'.trans hreports, ?_, ?_, ?_⟩
  · rw [hsupervisor', hsupervisor, ← hreported]
    rfl
  · rw [hcommits', hcopies', hsaves', hstop']
    exact hcommit
  · rw [hstop']
    unfold feed
    rw [hfeeds]
    split_ifs
    · rw [hrefreshes]
    · rw [hrefreshes, List.append_nil]

end

/-! ## A whole run -/

section
variable {σ : Type} {board : Board} {app : Application σ} {results : Nat → CanResult}
  {device : Device} {candidate : BootCandidate} {turns : List Turn} {runtime : Runtime σ}

/-- The application after some turns. -/
def Application.after (app : Application σ) (state : σ) (turns : List Turn) : σ :=
  turns.foldl (fun state turn => (app.process (UInt32.ofNat turn.time) state).1) state

/-- The times of some turns and the health after them, if all of them come. -/
def Application.healths (app : Application σ) : σ → List Turn → List (Nat × Bool)
  | _, [] => []
  | state, turn :: turns =>
    let state := (app.process (UInt32.ofNat turn.time) state).1
    (turn.time, app.is_healthy state) :: app.healths state turns

theorem healths_concat (app : Application σ) (state : σ) (turns : List Turn) (turn : Turn) :
    app.healths state (turns ++ [turn]) = app.healths state turns ++
      [(turn.time, app.is_healthy (app.after state (turns ++ [turn])))] := by
  induction turns generalizing state with
  | nil => rfl
  | cons first turns ih =>
    rw [List.cons_append, Application.healths, Application.healths]
    exact congrArg (_ :: ·) (ih _)

theorem after_concat (app : Application σ) (state : σ) (turns : List Turn) (turn : Turn) :
    app.after state (turns ++ [turn]) =
      (app.process (UInt32.ofNat turn.time) (app.after state turns)).1 := by
  rw [Application.after, List.foldl_append]
  rfl

theorem healths_times (app : Application σ) (state : σ) (turns : List Turn) :
    (app.healths state turns).map Prod.fst = turns.map Turn.time := by
  induction turns generalizing state with
  | nil => rfl
  | cons turn turns ih => exact congrArg (turn.time :: ·) (ih _)

/-- The confirmation before the first poll. -/
def firstConfirmation : BootConfirmation :=
  boot_confirmation_init BOOT_CONFIRM_STABILIZATION_MS true

/-- Some poll calls the commit function. -/
def SomeCalled (polls : List Poll) : Prop :=
  ∃ earlier p later, polls = earlier ++ p :: later ∧ CommitCalled firstConfirmation earlier p

theorem some_called_concat (polls : List Poll) (p : Poll) :
    SomeCalled (polls ++ [p]) ↔ SomeCalled polls ∨ CommitCalled firstConfirmation polls p := by
  constructor
  · rintro ⟨earlier, q, later, hsplit, hcalled⟩
    rcases List.eq_nil_or_concat later with rfl | ⟨later, last, rfl⟩
    · obtain ⟨rfl, hp⟩ := List.append_inj' hsplit rfl
      cases hp
      exact Or.inr hcalled
    · rw [List.concat_eq_append, ← List.cons_append, ← List.append_assoc] at hsplit
      exact Or.inl ⟨earlier, q, later, (List.append_inj' hsplit rfl).1, hcalled⟩
  · rintro (⟨earlier, q, later, rfl, hcalled⟩ | hcalled)
    · exact ⟨earlier, q, later ++ [p], by simp, hcalled⟩
    · exact ⟨polls, p, [], rfl, hcalled⟩

/-- The device with what a run has saved. -/
def Runtime.over (runtime : Runtime σ) (device : Device) : Device :=
  { device with
    copies := runtime.copies
    saves := device.saves ++ runtime.saves
    mode := if runtime.stop = some .PowerLost then .Off else device.mode }

def timesOf (reports : List Poll) : List (Nat × Bool) := reports.map fun p => (p.time, p.healthy)

/-- What a run of some turns has done, on a device that runs the image: the commits are
confirmations of the device, the health of the turns is what was reported, and the
watchdog was fed at the healthy reports. -/
structure Ran (board : Board) (app : Application σ) (device : Device) (turns : List Turn)
    (runtime : Runtime σ) : Prop where
  confirmation : runtime.boot_confirmation = afterPolls firstConfirmation runtime.reports
  called : runtime.commits ≠ [] ↔ SomeCalled runtime.reports
  commits_from : ∀ save ∈ runtime.commits, ∃ turn ∈ turns, turn.save = save
  device_eq : device.run board (runtime.commits.map .Confirm) = runtime.over device
  supervisor : runtime.health_supervisor.max_progress_age_ms ≠ 0
  refreshes : runtime.refreshes <+: (runtime.reports.filter Poll.healthy).map Poll.time ∧
    (runtime.stop ≠ some .PowerLost →
      runtime.refreshes = (runtime.reports.filter Poll.healthy).map Poll.time)
  reported : timesOf runtime.reports <+: app.healths app.init.1 turns
  current : runtime.stop = none → timesOf runtime.reports = app.healths app.init.1 turns ∧
    runtime.app = app.after app.init.1 turns

theorem start_ran (watchdog_ok : Bool) (ram : Ram) :
    Ran board app device [] (start board app watchdog_ok device.copies ram) := by
  have hstop : (start board app watchdog_ok device.copies ram).stop ≠ some .PowerLost := by
    unfold start
    dsimp only
    split_ifs <;> simp
  have hage : WATCHDOG_TIMEOUT_MS / 2 ≠ 0 := by decide
  refine ⟨rfl, ⟨fun h => absurd rfl h, ?_⟩, ?_, ?_, hage, ⟨List.prefix_refl _, fun _ => rfl⟩,
    List.prefix_refl _, fun _ => ⟨rfl, rfl⟩⟩
  · rintro ⟨earlier, p, later, hsplit, -⟩
    exact absurd hsplit.symm (List.append_ne_nil_of_right_ne_nil _ (List.cons_ne_nil _ _))
  · exact fun save hmem => absurd hmem (List.not_mem_nil)
  · unfold Runtime.over
    rw [if_neg hstop]
    change device = { device with saves := device.saves ++ [] }
    rw [List.append_nil]

/-- Nothing but the reset changes. -/
theorem Ran.reset (h : Ran board app device turns runtime) (hgoes : runtime.stop = none)
    (turn : Turn) (agent : UpdateAgent) (state : σ) :
    Ran board app device (turns ++ [turn])
      (requestUpdateReset board { runtime with agent, app := state }) := by
  have hnot : runtime.stop ≠ some .PowerLost := by rw [hgoes]; simp
  refine ⟨h.confirmation, h.called, ?_, ?_, h.supervisor,
    ⟨h.refreshes.1, fun _ => h.refreshes.2 hnot⟩, ?_, ?_⟩
  · intro save hmem
    obtain ⟨other, hother, rfl⟩ := h.commits_from save hmem
    exact ⟨other, List.mem_append_left _ hother, rfl⟩
  · rw [show (requestUpdateReset board { runtime with agent, app := state }).over device =
      runtime.over device by simp [requestUpdateReset, Runtime.over, hnot]]
    exact h.device_eq
  · exact h.reported.trans (by rw [healths_concat]; exact List.prefix_append _ _)
  · exact nofun

theorem Ran.attended (h : Ran board app device turns runtime) (hgoes : runtime.stop = none)
    (hmode : device.mode = .Running candidate) {turn : Turn} {agent : UpdateAgent}
    {after : Runtime σ} (hafter : Attended app turn
      { runtime with agent, app := (app.process (UInt32.ofNat turn.time) runtime.app).1 } after) :
    Ran board app device (turns ++ [turn]) after := by
  obtain ⟨happ, hconfirmation, hreports, hsupervisor, hcommit, hrefreshes⟩ := hafter
  dsimp only at happ hconfirmation hreports hsupervisor hcommit hrefreshes
  obtain ⟨htimes, hstate⟩ := h.current hgoes
  have hnot : runtime.stop ≠ some .PowerLost := by rw [hgoes]; simp
  rw [hstate, ← after_concat] at happ
  rw [hstate, ← after_concat] at hconfirmation hreports hcommit hrefreshes
  generalize hpoll : (⟨turn.time, app.is_healthy (app.after app.init.1 (turns ++ [turn])),
    (platform_confirm_pending_boot runtime.copies turn.save).1⟩ : Poll) = p at *
  have hlast : timesOf after.reports = app.healths app.init.1 (turns ++ [turn]) := by
    rw [hreports, timesOf, List.map_append, healths_concat, ← htimes, ← hpoll]
    rfl
  rw [h.confirmation] at hconfirmation hcommit
  refine ⟨?_, ?_, ?_, ?_, by rw [hsupervisor]; exact h.supervisor, ?_, ?_, fun _ => ⟨hlast, happ⟩⟩
  · rw [hconfirmation, hreports, afterPolls_concat]
  · rw [hreports, some_called_concat, ← h.called, CommitCalled]
    rcases hcommit with ⟨hcalled, hcommits, -⟩ | ⟨hcalled, hcommits, -⟩
    · rw [hcommits, hcalled]
      simp
    · rw [hcommits, hcalled]
      simp
  · intro save hmem
    have hcases : save ∈ runtime.commits ∨ save = turn.save := by
      rcases hcommit with ⟨-, hcommits, -⟩ | ⟨-, hcommits, -⟩
      · exact Or.inl (hcommits ▸ hmem)
      · rw [hcommits, List.mem_append, List.mem_singleton] at hmem
        exact hmem
    rcases hcases with hmem | rfl
    · obtain ⟨other, hother, rfl⟩ := h.commits_from save hmem
      exact ⟨other, List.mem_append_left _ hother, rfl⟩
    · exact ⟨turn, List.mem_append_right _ (List.mem_singleton_self _), rfl⟩
  · rcases hcommit with ⟨-, hcommits, hcopies, hsaves, hstop⟩ |
      ⟨-, hcommits, hcopies, hsaves, hstop⟩
    · rw [hcommits, h.device_eq]
      unfold Runtime.over
      rw [hcopies, hsaves, hstop, hgoes]
    · rw [hcommits, List.map_append, List.map_singleton, run_snoc, h.device_eq]
      unfold Runtime.over
      rw [if_neg hnot, hcopies, hsaves, hstop]
      unfold Device.step
      dsimp only
      rw [hmode]
      dsimp only
      rw [List.append_assoc]
      split_ifs <;> simp_all
  · have hbefore := h.refreshes.2 hnot
    have hfed : (after.reports.filter Poll.healthy).map Poll.time = runtime.refreshes ++
        if app.is_healthy (app.after app.init.1 (turns ++ [turn])) then [turn.time] else [] := by
      rw [hreports, List.filter_append, List.map_append, ← hbefore, ← hpoll]
      congr 1
      cases app.is_healthy (app.after app.init.1 (turns ++ [turn])) <;> rfl
    rw [hfed, hrefreshes]
    refine ⟨?_, fun hpower => ?_⟩
    · split_ifs with hboth hhealthy
      · exact List.prefix_refl _
      · exact absurd hboth.2 hhealthy
      · exact List.prefix_append_right_inj _ |>.mpr (List.nil_prefix)
      · exact List.prefix_refl _
    · have hnone : after.stop = none := by
        rcases hcommit with ⟨-, -, -, -, hstop⟩ | ⟨-, -, -, -, hstop⟩
        · exact hstop
        · rw [hstop] at hpower ⊢
          split_ifs at hpower ⊢
          · exact absurd rfl hpower
          · rfl
      simp only [hnone, true_and]
  · rw [hlast]

theorem Ran.turn (h : Ran board app device turns runtime)
    (hmode : device.mode = .Running candidate) (turn : Turn) :
    Ran board app device (turns ++ [turn]) (Runtime.turn board app results runtime turn) := by
  by_cases hgoes : runtime.stop = none
  · rcases @turn_cases σ board app results runtime turn hgoes with ⟨agent, state, heq⟩ | ⟨agent, heq⟩
    · rw [heq]
      exact h.reset hgoes turn agent state
    · rw [heq]
      exact h.attended hgoes hmode (attend_attended h.supervisor hgoes)
  · rw [turn_stopped hgoes]
    refine ⟨h.confirmation, h.called, ?_, h.device_eq, h.supervisor, h.refreshes, ?_,
      fun hnone => absurd hnone hgoes⟩
    · intro save hmem
      obtain ⟨other, hother, rfl⟩ := h.commits_from save hmem
      exact ⟨other, List.mem_append_left _ hother, rfl⟩
    · exact h.reported.trans (by rw [healths_concat]; exact List.prefix_append _ _)

theorem Ran.run (h : Ran board app device turns runtime)
    (hmode : device.mode = .Running candidate) (more : List Turn) :
    Ran board app device (turns ++ more) (runtime.run board app results more) := by
  induction more generalizing turns runtime with
  | nil => rwa [List.append_nil]
  | cons turn more ih =>
    rw [List.append_cons]
    exact ih (h.turn hmode turn)

theorem started_ran (hmode : device.mode = .Running candidate) (watchdog_ok : Bool) (ram : Ram)
    (turns : List Turn) :
    Ran board app device turns
      ((start board app watchdog_ok device.copies ram).run board app results turns) :=
  (start_ran watchdog_ok ram).run hmode turns

end

/-! ## Where a run stops -/

section
variable {σ : Type} {board : Board} {app : Application σ} {results : Nat → CanResult}
  {turns : List Turn} {runtime : Runtime σ}

theorem turn_stop {turn : Turn} (hgoes : runtime.stop = none)
    (hage : runtime.health_supervisor.max_progress_age_ms ≠ 0) :
    let after := Runtime.turn board app results runtime turn
    after.stop = none ∨ after.stop = some .UpdateReset ∨
      after.stop = some .PowerLost ∧ turn.save.isPowerLost = true := by
  rcases @turn_cases σ board app results runtime turn hgoes with ⟨agent, state, heq⟩ | ⟨agent, heq⟩
  · exact Or.inr (Or.inl (by rw [heq]; rfl))
  · rw [heq]
    have hattended := @attend_attended σ app
      { runtime with agent, app := (app.process (UInt32.ofNat turn.time) runtime.app).1 } turn hage
      hgoes
    rcases hattended.commit with ⟨-, -, -, -, hstop⟩ | ⟨-, -, -, -, hstop⟩
    · exact Or.inl hstop
    · dsimp only
      rw [hstop]
      split_ifs with hlost
      · exact Or.inr (Or.inr ⟨rfl, hlost.2⟩)
      · exact Or.inl rfl

theorem run_stopped (hstopped : runtime.stop ≠ none) (turns : List Turn) :
    runtime.run board app results turns = runtime := by
  induction turns with
  | nil => rfl
  | cons turn turns ih =>
    unfold Runtime.run at *
    rw [List.foldl_cons, turn_stopped hstopped, ih]

/-- A run whose saves keep the power goes on, unless there is a request for an update. -/
theorem run_goes {device : Device} {candidate : BootCandidate} {before : List Turn}
    (h : Ran board app device before runtime) (hmode : device.mode = .Running candidate)
    (hgoes : runtime.stop = none) (hsaves : ∀ turn ∈ turns, turn.save.isPowerLost = false)
    (hstays : (runtime.run board app results turns).stop ≠ some .UpdateReset) :
    (runtime.run board app results turns).stop = none := by
  induction turns generalizing runtime before with
  | nil => exact hgoes
  | cons turn turns ih =>
    have hturn := @turn_stop σ board app results runtime turn hgoes h.supervisor
    rcases hturn with hnone | hreset | ⟨-, hlost⟩
    · exact ih (h.turn hmode turn) hnone
        (fun other hmem => hsaves other (List.mem_cons_of_mem _ hmem))
        hstays
    · have hstopped := @run_stopped σ board app results (Runtime.turn board app results runtime turn)
        (by rw [hreset]; simp) turns
      apply absurd _ hstays
      unfold Runtime.run at hstopped ⊢
      rw [List.foldl_cons, hstopped]
      exact hreset
    · rw [hsaves turn (List.mem_cons_self ..)] at hlost
      cases hlost

end

section
variable {σ : Type} {board : Board} {app : Application σ} {results : Nat → CanResult}
  (hprocess : ∀ now_ms state, (app.process now_ms state).2 = false)
include hprocess

theorem turn_unasked {runtime : Runtime σ} (hagent : runtime.agent.halted = false)
    (hstop : runtime.stop ≠ some .UpdateReset) {turn : Turn} (hrx : turn.rx = ([], [])) :
    let after := Runtime.turn board app results runtime turn
    after.agent.halted = false ∧ after.stop ≠ some .UpdateReset := by
  have hpoll :
      update_agent_poll results UPDATE_CAN_NODE_ID runtime.agent turn.rx = runtime.agent := by
    rw [hrx]
    rfl
  unfold Runtime.turn
  dsimp only
  rw [hpoll]
  simp only [hagent, hprocess, Bool.false_eq_true, if_false]
  split_ifs
  · exact ⟨hagent, hstop⟩
  · unfold attend feed confirm
    dsimp only
    split_ifs <;> simp_all

/-- Where nothing comes in and the application asks for nothing, there is no reset for
an update. -/
theorem run_unasked {runtime : Runtime σ} (hagent : runtime.agent.halted = false)
    (hstop : runtime.stop ≠ some .UpdateReset) {turns : List Turn}
    (hrx : ∀ turn ∈ turns, turn.rx = ([], [])) :
    (runtime.run board app results turns).stop ≠ some .UpdateReset := by
  induction turns generalizing runtime with
  | nil => exact hstop
  | cons turn turns ih =>
    obtain ⟨hnext, hgoes⟩ := @turn_unasked σ board app results hprocess runtime hagent hstop turn
      (hrx turn (List.mem_cons_self ..))
    exact ih hnext hgoes fun other hmem => hrx other (List.mem_cons_of_mem _ hmem)

end

/-! ## Healthy for long enough -/

/-- Some healthy turns in a row span the stabilization interval. -/
def Steady (healths : List (Nat × Bool)) : Prop :=
  ∃ before first between last after, healths = before ++ first :: (between ++ last :: after) ∧
    (∀ report ∈ first :: (between ++ [last]), report.2 = true) ∧
    first.1 + BOOT_CONFIRM_STABILIZATION_MS.toNat ≤ last.1

/-- They begin with the first turn or after an unhealthy one, and the counter of the
milliseconds does not come round meanwhile. -/
def Stabilizes (healths : List (Nat × Bool)) : Prop :=
  ∃ before first between last after, healths = before ++ first :: (between ++ last :: after) ∧
    (∀ report ∈ before.getLast?, report.2 = false) ∧
    (∀ report ∈ first :: (between ++ [last]), report.2 = true) ∧
    first.1 + BOOT_CONFIRM_STABILIZATION_MS.toNat ≤ last.1 ∧ last.1 < first.1 + 2 ^ 32

theorem steady_begun {reports healths : List (Nat × Bool)} (h : reports <+: healths)
    (hsteady : Steady reports) : Steady healths := by
  obtain ⟨rest, rfl⟩ := h
  obtain ⟨before, first, between, last, after, rfl, hhealthy, hlong⟩ := hsteady
  exact ⟨before, first, between, last, after ++ rest, by simp, hhealthy, hlong⟩

/-- The commit function is called only when the application was steady. -/
theorem called_steady {reports : List Poll} (ordered : Ordered reports)
    (h : SomeCalled reports) : Steady (timesOf reports) := by
  obtain ⟨earlier, p, later, rfl, hcalled⟩ := h
  have ordered' : Ordered (earlier ++ [p]) :=
    ordered.sublist (List.Sublist.append_left (List.singleton_sublist.mpr (List.mem_cons_self ..)) _)
  obtain ⟨healthy, first, opened, elapsed⟩ := commit_called_window ordered' hcalled
  obtain ⟨before, between, rfl, first_healthy, all⟩ := window_split opened
  refine ⟨timesOf before, (first.time, first.healthy), timesOf between, (p.time, p.healthy),
    timesOf later, ?_, ?_, elapsed⟩
  · simp [timesOf]
  · intro report hmem
    rw [List.mem_cons, List.mem_append, List.mem_singleton] at hmem
    rcases hmem with rfl | hmem | rfl
    · exact first_healthy
    · obtain ⟨q, hq, rfl⟩ := List.mem_map.mp hmem
      exact all q hq
    · exact healthy

theorem afterPolls_commit (polls : List Poll) :
    (afterPolls firstConfirmation polls).commit = true := by
  induction polls using List.reverseRecOn with
  | nil => rfl
  | append_singleton polls p ih => rw [afterPolls_concat, poll_commit, ih]

theorem window_append {polls more : List Poll} (h : ∀ p ∈ more, p.healthy = true) :
    window (polls ++ more) = window polls ++ more := by
  induction more using List.reverseRecOn with
  | nil => rw [List.append_nil, List.append_nil]
  | append_singleton more p ih =>
    have hp := h p (List.mem_append_right _ (List.mem_singleton_self p))
    rw [← List.append_assoc, window_concat, hp, if_pos rfl,
      ih fun q hq => h q (List.mem_append_left _ hq), List.append_assoc]

theorem window_unhealthy {polls : List Poll} (h : ∀ p ∈ polls.getLast?, p.healthy = false) :
    window polls = [] := by
  rcases List.eq_nil_or_concat polls with rfl | ⟨polls, p, rfl⟩
  · rfl
  · have hp : p.healthy = false := h p (by simp)
    rw [List.concat_eq_append, window_concat, hp]
    simp

theorem wrapped_difference_eq {s t : Nat} (hle : s ≤ t) (hlt : t < s + 2 ^ 32) :
    (UInt32.ofNat t - UInt32.ofNat s).toNat = t - s := by
  rw [UInt32.toNat_sub]
  simp only [UInt32.toNat_ofNat']
  omega

theorem poll_late {confirmation : BootConfirmation} {p : Poll}
    (running : confirmation.completed = false) (set : confirmation.commit = true)
    (healthy : p.healthy = true) (active : confirmation.healthy_period_active = true)
    (late : confirmation.stabilization_ms ≤ UInt32.ofNat p.time - confirmation.healthy_since_ms) :
    (boot_confirmation.poll confirmation p).2 = true := by
  unfold boot_confirmation.poll boot_confirmation_poll
  simp [running, set, healthy, active, late]

/-- An application that stabilizes has its commit function called. -/
theorem stabilizes_called {reports : List Poll} (h : Stabilizes (timesOf reports)) :
    SomeCalled reports := by
  obtain ⟨before, first, between, last, after, hsplit, hbefore, hhealthy, hlong, hwrap⟩ := h
  obtain ⟨earlier, _, rfl, rfl, hopening⟩ := List.map_eq_append_iff.mp hsplit
  obtain ⟨opening, _, rfl, rfl, hmore⟩ := List.map_eq_cons_iff.mp hopening
  obtain ⟨middle, _, rfl, rfl, hend⟩ := List.map_eq_append_iff.mp hmore
  obtain ⟨p, rest, rfl, rfl, -⟩ := List.map_eq_cons_iff.mp hend
  dsimp only at hhealthy hlong hwrap
  have hp : p.healthy = true := hhealthy (p.time, p.healthy) (by simp)
  have hmiddle : ∀ q ∈ opening :: middle, q.healthy = true := by
    intro q hmem
    apply hhealthy (q.time, q.healthy)
    rw [List.mem_cons] at hmem
    rcases hmem with rfl | hmem
    · exact List.mem_cons_self ..
    · exact List.mem_cons_of_mem _ (List.mem_append_left _ (List.mem_map.mpr ⟨q, hmem, rfl⟩))
  have hlast : ∀ q ∈ earlier.getLast?, q.healthy = false := by
    intro q hmem
    apply hbefore (q.time, q.healthy)
    rw [List.getLast?_map]
    exact Option.mem_map_of_mem _ hmem
  have hwindow : window (earlier ++ opening :: middle) = opening :: middle := by
    rw [window_append hmiddle, window_unhealthy hlast, List.nil_append]
  by_cases hearlier : SomeCommitted firstConfirmation (earlier ++ opening :: middle)
  · obtain ⟨sooner, q, later, hq, hcalled, -⟩ := hearlier
    exact ⟨sooner, q, later ++ p :: rest, by rw [← List.cons_append, ← List.append_assoc, hq]; simp,
      hcalled⟩
  · refine ⟨earlier ++ opening :: middle, p, rest, by simp, ?_⟩
    have tracks := tracks_afterPolls BOOT_CONFIRM_STABILIZATION_MS true
      (earlier ++ opening :: middle)
    have interval := afterPolls_stabilization firstConfirmation (earlier ++ opening :: middle)
    have hcommit := afterPolls_commit (earlier ++ opening :: middle)
    have hrunning : (afterPolls firstConfirmation (earlier ++ opening :: middle)).completed =
        false := by
      apply Bool.eq_false_iff.mpr
      intro hcomplete
      exact hearlier ((is_complete_iff_committed BOOT_CONFIRM_STABILIZATION_MS true _).mp hcomplete)
    have tracks := tracks hrunning hcommit
    rw [hwindow] at tracks
    obtain ⟨active, since⟩ := tracks
    have hdiff := wrapped_difference_eq (by omega : opening.time ≤ p.time) hwrap
    apply poll_late hrunning hcommit hp active
    rw [interval, UInt32.le_iff_toNat_le]
    change _ ≤ (UInt32.ofNat p.time -
      (afterPolls (boot_confirmation_init _ true) _).healthy_since_ms).toNat
    rw [since, hdiff]
    change BOOT_CONFIRM_STABILIZATION_MS.toNat ≤ _
    omega

/-! ## What the loop does for the device -/

theorem ordered_reports {healths : List (Nat × Bool)} {reports : List Poll}
    (hbegins : timesOf reports <+: healths)
    (hordered : (healths.map Prod.fst).Pairwise (· ≤ ·)) : Ordered reports := by
  have hsub : (timesOf reports).map Prod.fst <+: healths.map Prod.fst := hbegins.map Prod.fst
  have htimes := hordered.sublist hsub.sublist
  unfold timesOf at htimes
  rw [List.map_map, List.pairwise_map] at htimes
  exact htimes

theorem Ran.steady {σ : Type} {board : Board} {app : Application σ} {device : Device}
    {turns : List Turn} {runtime : Runtime σ} (h : Ran board app device turns runtime)
    (hordered : (turns.map Turn.time).Pairwise (· ≤ ·)) (hcommits : runtime.commits ≠ []) :
    Steady (app.healths app.init.1 turns) := by
  have hreports := ordered_reports h.reported (by rwa [healths_times])
  exact steady_begun h.reported (called_steady hreports (h.called.mp hcommits))

theorem healthy_times {reports : List Poll} {healths : List (Nat × Bool)}
    (h : timesOf reports <+: healths) :
    (reports.filter Poll.healthy).map Poll.time <+: (healths.filter Prod.snd).map Prod.fst := by
  have hfilter := (h.filter Prod.snd).map Prod.fst
  rwa [timesOf, List.filter_map, List.map_map] at hfilter

/-- Whatever runs: the watchdog is fed in the healthy turns, in all of them while the loop
goes, and never in another, and no boot is confirmed before the application was steady.
While the loop goes, an application that stabilizes has its boot confirmed. -/
theorem loop_guards {σ : Type} (board : Board) (app : Application σ) (results : Nat → CanResult)
    {device : Device} {candidate : BootCandidate} (hmode : device.mode = .Running candidate)
    (watchdog_ok : Bool) (ram : Ram) {turns : List Turn}
    (hordered : (turns.map Turn.time).Pairwise (· ≤ ·)) :
    let healths := app.healths app.init.1 turns
    let after := (start board app watchdog_ok device.copies ram).run board app results turns
    after.refreshes <+: (healths.filter Prod.snd).map Prod.fst ∧
      (after.copies ≠ device.copies → Steady healths) ∧
      (after.stop = none → after.refreshes = (healths.filter Prod.snd).map Prod.fst ∧
        (Stabilizes healths → after.commits ≠ [])) := by
  intro healths after
  have hran : Ran board app device turns after := started_ran hmode watchdog_ok ram turns
  refine ⟨hran.refreshes.1.trans (healthy_times hran.reported), fun hcopies => ?_, fun hgoes => ?_⟩
  · apply hran.steady hordered
    intro hnone
    have hsame := hran.device_eq
    rw [hnone] at hsame
    exact hcopies (congrArg Device.copies hsame).symm
  · have hreports : timesOf after.reports = healths := (hran.current hgoes).1
    refine ⟨?_, fun hstable => hran.called.mpr (stabilizes_called (hreports ▸ hstable))⟩
    rw [hran.refreshes.2 (by rw [hgoes]; simp), ← hreports, timesOf, List.filter_map, List.map_map]
    rfl

/-- An application that is always healthy, or never. -/
def smallApp (healthy : Bool) : Application Unit where
  init := ((), true)
  process := fun _ state => (state, false)
  is_healthy := fun _ => healthy

/-- Two turns that are five seconds apart. -/
def smallTurns : List Turn := [⟨0, ([], []), .Completes⟩, ⟨5000, ([], []), .Completes⟩]

theorem loop_guards_small :
    let device := { firstDevice (image_for_mode .ConfirmedA) handover.smallSlots with
      mode := .Running (candidateFor .F446 BOOT_SLOT_A false) }
    let app := smallApp true
    let healths := app.healths app.init.1 smallTurns
    let after := (start .F446 app true device.copies fun _ => 0).run .F446 app (fun _ => .Ok)
      smallTurns
    after.refreshes <+: (healths.filter Prod.snd).map Prod.fst ∧
      (after.copies ≠ device.copies → Steady healths) ∧
      (after.stop = none → after.refreshes = (healths.filter Prod.snd).map Prod.fst ∧
        (Stabilizes healths → after.commits ≠ [])) :=
  loop_guards .F446 (smallApp true) _ rfl true _ (by decide)

end stm32_vibe.app_runtime
