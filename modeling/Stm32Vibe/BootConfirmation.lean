-- The confirmation of a trial boot: the application reports its health at
-- every poll, and the boot is confirmed once the reports were healthy for the
-- whole stabilization interval. The times are a 32-bit millisecond counter
-- that wraps; what is proved is about the real time behind it.
import Mathlib.Data.List.DropRight
import Mathlib.Tactic

namespace stm32_vibe.boot_confirmation

/-! ## The functions of the confirmation -/

/-- `commit` says whether a commit function is set. -/
structure BootConfirmation where
  commit : Bool
  healthy_since_ms : UInt32
  stabilization_ms : UInt32
  healthy_period_active : Bool
  completed : Bool
deriving DecidableEq, Repr

def boot_confirmation_init (stabilization_ms : UInt32) (commit : Bool) : BootConfirmation :=
  { commit
    healthy_since_ms := 0
    stabilization_ms
    healthy_period_active := false
    completed := false }

/-- One poll, and whether it called the commit function; `committed` is what
that function returns if it is called. -/
def boot_confirmation_poll (confirmation : BootConfirmation) (now_ms : UInt32) (healthy : Bool)
    (committed : Bool) : BootConfirmation × Bool :=
  if confirmation.completed || !confirmation.commit then (confirmation, false)
  else if !healthy then ({ confirmation with healthy_period_active := false }, false)
  else if !confirmation.healthy_period_active then
    ({ confirmation with healthy_since_ms := now_ms, healthy_period_active := true }, false)
  else if now_ms - confirmation.healthy_since_ms ≥ confirmation.stabilization_ms then
    ({ confirmation with completed := committed }, true)
  else (confirmation, false)

def boot_confirmation_is_complete (confirmation : BootConfirmation) : Bool :=
  confirmation.completed

/-! ## Polls at real times -/

/-- A poll: its time in milliseconds since the start, unbounded, the health
report, and what the commit function returns if this poll calls it. -/
structure Poll where
  time : Nat
  healthy : Bool
  committed : Bool
deriving DecidableEq, Repr

/-- The poll as the firmware sees it, with the time modulo 2^32. -/
def poll (confirmation : BootConfirmation) (p : Poll) : BootConfirmation × Bool :=
  boot_confirmation_poll confirmation (UInt32.ofNat p.time) p.healthy p.committed

def afterPolls (confirmation : BootConfirmation) (polls : List Poll) : BootConfirmation :=
  polls.foldl (fun confirmation p => (poll confirmation p).1) confirmation

/-- The poll `p` after the polls `polls` calls the commit function. -/
def CommitCalled (confirmation : BootConfirmation) (polls : List Poll) (p : Poll) : Prop :=
  (poll (afterPolls confirmation polls) p).2 = true

instance (confirmation : BootConfirmation) (polls : List Poll) (p : Poll) :
    Decidable (CommitCalled confirmation polls p) :=
  inferInstanceAs (Decidable (_ = true))

/-- Some call of the commit function in `polls` returned true. -/
def SomeCommitted (confirmation : BootConfirmation) (polls : List Poll) : Prop :=
  ∃ earlier p later, polls = earlier ++ p :: later ∧
    CommitCalled confirmation earlier p ∧ p.committed = true

/-- The times of the polls never go back. -/
def Ordered (polls : List Poll) : Prop :=
  polls.Pairwise (fun p q => p.time ≤ q.time)

instance (polls : List Poll) : Decidable (Ordered polls) :=
  inferInstanceAs (Decidable (polls.Pairwise _))

/-- The healthy polls at the end: every poll since the last unhealthy one. -/
def window (polls : List Poll) : List Poll :=
  polls.rtakeWhile (·.healthy)

theorem window_nil : window [] = [] := rfl

theorem window_concat (polls : List Poll) (p : Poll) :
    window (polls ++ [p]) = if p.healthy then window polls ++ [p] else [] := by
  unfold window
  split
  · rw [List.rtakeWhile_concat_pos _ _ _ ‹_›]
  · rw [List.rtakeWhile_concat_neg _ _ _ ‹_›]

theorem window_healthy {polls : List Poll} {p : Poll} (h : p ∈ window polls) :
    p.healthy = true :=
  List.mem_rtakeWhile_imp h

@[simp]
theorem afterPolls_nil (confirmation : BootConfirmation) :
    afterPolls confirmation [] = confirmation := rfl

@[simp]
theorem afterPolls_concat (confirmation : BootConfirmation) (polls : List Poll) (p : Poll) :
    afterPolls confirmation (polls ++ [p]) = (poll (afterPolls confirmation polls) p).1 := by
  simp [afterPolls]

/-! ## One poll -/

/-- Everything a poll can do. -/
theorem poll_cases (confirmation : BootConfirmation) (p : Poll) :
    ((confirmation.completed = true ∨ confirmation.commit = false) ∧
      poll confirmation p = (confirmation, false)) ∨
    (confirmation.completed = false ∧ confirmation.commit = true ∧ p.healthy = false ∧
      poll confirmation p = ({ confirmation with healthy_period_active := false }, false)) ∨
    (confirmation.completed = false ∧ confirmation.commit = true ∧ p.healthy = true ∧
      confirmation.healthy_period_active = false ∧
      poll confirmation p =
        ({ confirmation with
            healthy_since_ms := UInt32.ofNat p.time, healthy_period_active := true }, false)) ∨
    (confirmation.completed = false ∧ confirmation.commit = true ∧ p.healthy = true ∧
      confirmation.healthy_period_active = true ∧
      confirmation.stabilization_ms ≤ UInt32.ofNat p.time - confirmation.healthy_since_ms ∧
      poll confirmation p = ({ confirmation with completed := p.committed }, true)) ∨
    (confirmation.completed = false ∧ confirmation.commit = true ∧ p.healthy = true ∧
      confirmation.healthy_period_active = true ∧ poll confirmation p = (confirmation, false)) := by
  unfold poll boot_confirmation_poll
  cases confirmation.completed
  · cases confirmation.commit
    · simp
    · cases p.healthy
      · simp
      · cases confirmation.healthy_period_active
        · simp
        · by_cases late : confirmation.stabilization_ms ≤
            UInt32.ofNat p.time - confirmation.healthy_since_ms
          · simp [late]
          · simp [late]
  · simp

theorem poll_stabilization (confirmation : BootConfirmation) (p : Poll) :
    (poll confirmation p).1.stabilization_ms = confirmation.stabilization_ms := by
  rcases poll_cases confirmation p with h | h | h | h | h <;> simp [h]

theorem poll_commit (confirmation : BootConfirmation) (p : Poll) :
    (poll confirmation p).1.commit = confirmation.commit := by
  rcases poll_cases confirmation p with h | h | h | h | h <;> simp [h]

/-- A poll completes the confirmation when its call of the commit function
returns true, and never undoes a completed one. -/
theorem poll_completed (confirmation : BootConfirmation) (p : Poll) :
    (poll confirmation p).1.completed = true ↔
      confirmation.completed = true ∨ ((poll confirmation p).2 = true ∧ p.committed = true) := by
  rcases poll_cases confirmation p with h | h | h | h | h <;> simp [h]

/-- A poll that calls the commit function is healthy, in an open window that is
old enough. -/
theorem poll_called {confirmation : BootConfirmation} {p : Poll}
    (h : (poll confirmation p).2 = true) :
    confirmation.completed = false ∧ confirmation.commit = true ∧ p.healthy = true ∧
      confirmation.healthy_period_active = true ∧
      confirmation.stabilization_ms ≤ UInt32.ofNat p.time - confirmation.healthy_since_ms := by
  rcases poll_cases confirmation p with c | c | c | c | c <;> simp_all

theorem poll_completed_silent {confirmation : BootConfirmation}
    (h : confirmation.completed = true) (p : Poll) : (poll confirmation p).2 = false := by
  rcases poll_cases confirmation p with h' | h' | h' | h' | h' <;> simp_all

/-! ## The window behind the state -/

/-- The fields of a confirmation that can still call its commit function are
those of the window: it is open when the window is not empty, and it opened at
the window's first poll. -/
def Tracks (confirmation : BootConfirmation) (polls : List Poll) : Prop :=
  confirmation.completed = false → confirmation.commit = true →
    match (window polls).head? with
    | none => confirmation.healthy_period_active = false
    | some first => confirmation.healthy_period_active = true ∧
        confirmation.healthy_since_ms = UInt32.ofNat first.time

theorem tracks_init (stabilization_ms : UInt32) (commit : Bool) :
    Tracks (boot_confirmation_init stabilization_ms commit) [] := by
  simp [Tracks, window_nil, boot_confirmation_init]

theorem tracks_poll {confirmation : BootConfirmation} {polls : List Poll}
    (h : Tracks confirmation polls) (p : Poll) :
    Tracks (poll confirmation p).1 (polls ++ [p]) := by
  intro running set
  rw [poll_commit] at set
  have before : confirmation.completed = false := by
    cases done : confirmation.completed
    · rfl
    · rw [(poll_completed confirmation p).mpr (Or.inl done)] at running
      exact running
  have h := h before set
  rw [window_concat]
  rcases poll_cases confirmation p with c | c | c | c | c
  · rcases c.1 with done | unset
    · rw [before] at done
      cases done
    · rw [set] at unset
      cases unset
  · simp [c]
  · obtain ⟨-, -, healthy, closed, step⟩ := c
    -- The window was empty, so this poll is its first one.
    cases first : (window polls).head? with
    | none =>
      rw [List.head?_eq_none_iff] at first
      simp [step, healthy, first]
    | some q =>
      rw [first] at h
      simp [closed] at h
  all_goals
    cases first : (window polls).head? with
    | none =>
      rw [first] at h
      simp_all
    | some q =>
      rw [first] at h
      simp_all

theorem tracks_afterPolls (stabilization_ms : UInt32) (commit : Bool) (polls : List Poll) :
    Tracks (afterPolls (boot_confirmation_init stabilization_ms commit) polls) polls := by
  induction polls using List.reverseRecOn with
  | nil => exact tracks_init stabilization_ms commit
  | append_singleton polls p ih =>
    rw [afterPolls_concat]
    exact tracks_poll ih p

theorem afterPolls_stabilization (confirmation : BootConfirmation) (polls : List Poll) :
    (afterPolls confirmation polls).stabilization_ms = confirmation.stabilization_ms := by
  induction polls using List.reverseRecOn with
  | nil => rfl
  | append_singleton polls p ih => rw [afterPolls_concat, poll_stabilization, ih]

/-- The difference of two wrapped times is at most the difference of the real
times. -/
theorem wrapped_difference_le {s t : Nat} (h : s ≤ t) :
    (UInt32.ofNat t - UInt32.ofNat s).toNat ≤ t - s := by
  rw [UInt32.toNat_sub]
  simp only [UInt32.toNat_ofNat']
  omega

/-! ## What a whole run does -/

theorem some_committed_concat (confirmation : BootConfirmation) (polls : List Poll) (p : Poll) :
    SomeCommitted confirmation (polls ++ [p]) ↔
      SomeCommitted confirmation polls ∨
        (CommitCalled confirmation polls p ∧ p.committed = true) := by
  constructor
  · rintro ⟨earlier, q, later, split, called, committed⟩
    induction later using List.reverseRecOn with
    | nil =>
      obtain ⟨rfl, last⟩ := List.append_inj' split rfl
      simp only [List.cons.injEq, and_true] at last
      subst last
      exact Or.inr ⟨called, committed⟩
    | append_singleton later r _ =>
      have split' : polls ++ [p] = (earlier ++ q :: later) ++ [r] := by simpa using split
      obtain ⟨rfl, -⟩ := List.append_inj' split' rfl
      exact Or.inl ⟨earlier, q, later, rfl, called, committed⟩
  · rintro (⟨earlier, q, later, rfl, called, committed⟩ | ⟨called, committed⟩)
    · exact ⟨earlier, q, later ++ [p], by simp, called, committed⟩
    · exact ⟨polls, p, [], rfl, called, committed⟩

/-- A confirmation is complete exactly when some call of its commit function
returned true. -/
theorem is_complete_iff_committed (stabilization_ms : UInt32) (commit : Bool)
    (polls : List Poll) :
    boot_confirmation_is_complete
        (afterPolls (boot_confirmation_init stabilization_ms commit) polls) = true ↔
      SomeCommitted (boot_confirmation_init stabilization_ms commit) polls := by
  unfold boot_confirmation_is_complete
  induction polls using List.reverseRecOn with
  | nil => simp [boot_confirmation_init, SomeCommitted]
  | append_singleton polls p ih =>
    rw [afterPolls_concat, poll_completed, ih, some_committed_concat]
    rfl

/-- The first poll of the window is one of the polls, and every poll after it
was healthy. -/
theorem window_split {polls : List Poll} {first : Poll}
    (h : (window polls).head? = some first) :
    ∃ earlier later, polls = earlier ++ first :: later ∧ first.healthy = true ∧
      ∀ q ∈ later, q.healthy = true := by
  obtain ⟨later, whole⟩ := List.head?_eq_some_iff.mp h
  obtain ⟨earlier, split⟩ := List.rtakeWhile_suffix (p := (·.healthy)) polls
  refine ⟨earlier, later, ?_, ?_, ?_⟩
  · rw [← split, ← whole]
    rfl
  · apply @window_healthy polls
    simp [whole]
  · intro q mem
    apply @window_healthy polls
    simp [whole, mem]

/-- A poll that calls the commit function ends a healthy window that began at
least the stabilization interval ago. -/
theorem commit_called_window {stabilization_ms : UInt32} {commit : Bool} {polls : List Poll}
    {p : Poll} (ordered : Ordered (polls ++ [p]))
    (called : CommitCalled (boot_confirmation_init stabilization_ms commit) polls p) :
    p.healthy = true ∧
      ∃ first, (window polls).head? = some first ∧
        first.time + stabilization_ms.toNat ≤ p.time := by
  have tracks := tracks_afterPolls stabilization_ms commit polls
  have interval :=
    afterPolls_stabilization (boot_confirmation_init stabilization_ms commit) polls
  obtain ⟨running, set, healthy, active, late⟩ := poll_called called
  have tracks := tracks running set
  refine ⟨healthy, ?_⟩
  cases first : (window polls).head? with
  | none =>
    rw [first] at tracks
    simp [tracks] at active
  | some start =>
    rw [first] at tracks
    rw [interval, tracks.2] at late
    obtain ⟨earlier, later, rfl, -, -⟩ := window_split first
    have before : start.time ≤ p.time := by
      apply (List.pairwise_append.mp ordered).2.2 <;> simp
    have elapsed := wrapped_difference_le before
    have late : stabilization_ms.toNat ≤
        (UInt32.ofNat p.time - UInt32.ofNat start.time).toNat := late
    exact ⟨start, rfl, by omega⟩

/-- Once a call of the commit function returned true, it is not called again. -/
theorem committed_silent {stabilization_ms : UInt32} {commit : Bool} {polls : List Poll}
    (committed : SomeCommitted (boot_confirmation_init stabilization_ms commit) polls)
    (p : Poll) : ¬ CommitCalled (boot_confirmation_init stabilization_ms commit) polls p := by
  have complete := (is_complete_iff_committed stabilization_ms commit polls).mpr committed
  simp [CommitCalled, poll_completed_silent complete]

/-- No early confirmation: a poll calls the commit function only at the end of
healthy polls that go back at least the stabilization interval, never again
after a call returned true, and the confirmation is complete exactly when some
call did. -/
theorem no_early_confirmation (stabilization_ms : UInt32) (commit : Bool) (polls : List Poll)
    (ordered : Ordered polls) :
    (∀ earlier p later, polls = earlier ++ p :: later →
      CommitCalled (boot_confirmation_init stabilization_ms commit) earlier p →
        (∃ before first between, earlier = before ++ first :: between ∧
          first.time + stabilization_ms.toNat ≤ p.time ∧
          ∀ q ∈ first :: between ++ [p], q.healthy = true) ∧
        ¬ SomeCommitted (boot_confirmation_init stabilization_ms commit) earlier) ∧
    (boot_confirmation_is_complete
        (afterPolls (boot_confirmation_init stabilization_ms commit) polls) = true ↔
      SomeCommitted (boot_confirmation_init stabilization_ms commit) polls) := by
  refine ⟨?_, is_complete_iff_committed stabilization_ms commit polls⟩
  intro earlier p later split called
  constructor
  · have ordered' : Ordered (earlier ++ [p]) := by
      apply List.Pairwise.sublist _ ordered
      rw [split]
      simp
    obtain ⟨healthy, first, opened, elapsed⟩ := commit_called_window ordered' called
    obtain ⟨before, between, rfl, first_healthy, all⟩ := window_split opened
    refine ⟨before, first, between, rfl, elapsed, ?_⟩
    intro q mem
    simp only [List.cons_append, List.mem_cons, List.mem_append, List.not_mem_nil,
      or_false] at mem
    rcases mem with rfl | mem | rfl
    · exact first_healthy
    · exact all q mem
    · exact healthy
  · intro committed
    exact committed_silent committed p called

/-- A window that wraps the counter: healthy from 100 ms before 2^32 on, the
call at 5000 ms is made and fails, the next one succeeds. -/
theorem no_early_confirmation_wrap :
    let polls := [⟨2 ^ 32 - 100, true, true⟩, ⟨2 ^ 32 + 4899, true, true⟩,
      ⟨2 ^ 32 + 4900, true, false⟩, ⟨2 ^ 32 + 4901, true, true⟩]
    CommitCalled (boot_confirmation_init 5000 true) (polls.take 3) ⟨2 ^ 32 + 4901, true, true⟩ ∧
    SomeCommitted (boot_confirmation_init 5000 true) polls := by
  intro polls
  have called : CommitCalled (boot_confirmation_init 5000 true) (polls.take 3)
      ⟨2 ^ 32 + 4901, true, true⟩ := by decide
  refine ⟨called, ?_⟩
  have run := no_early_confirmation 5000 true polls (by decide)
  exact run.2.mp (by decide)

end stm32_vibe.boot_confirmation
