-- Frames in a stream with garbage between them, read from the left: a frame is
-- taken where it starts, any other place is passed by one element, and the
-- reading stops where the input ends inside a frame.
import Mathlib.Data.List.Infix
import Mathlib.Tactic

namespace greedy_scan

universe u

/-- A set of frames, none of which is the beginning of another. -/
structure Frames (β : Type u) where
  IsFrame : List β → Prop
  not_nil : ¬ IsFrame []
  prefix_free : ∀ {frame more}, IsFrame frame → IsFrame (frame ++ more) → more = []

variable {β : Type u} (frames : Frames β)

/-- A whole frame stands at the front. -/
def Starts (input : List β) : Prop := ∃ frame, frames.IsFrame frame ∧ frame <+: input

/-- The input ends inside a possible frame. -/
def Unfinished (input : List β) : Prop :=
  input ≠ [] ∧ ∃ more, more ≠ [] ∧ frames.IsFrame (input ++ more)

/-- The reading of an input from an offset on: the frames that it emits, each
with its offset, and the offset where it stops. -/
inductive Greedy : Nat → List β → List (Nat × List β) → Nat → Prop
  | emit {offset : Nat} {input frame : List β} {emitted : List (Nat × List β)} {stop : Nat} :
      frames.IsFrame frame → frame <+: input →
      Greedy (offset + frame.length) (input.drop frame.length) emitted stop →
      Greedy offset input ((offset, frame) :: emitted) stop
  | skip {offset : Nat} {input : List β} {emitted : List (Nat × List β)} {stop : Nat} :
      input ≠ [] → ¬ Starts frames input → ¬ Unfinished frames input →
      Greedy (offset + 1) input.tail emitted stop → Greedy offset input emitted stop
  | stop {offset : Nat} {input : List β} :
      input = [] ∨ Unfinished frames input → Greedy offset input [] offset

variable {frames}

/-! ## Frames at the front -/

/-- At most one frame stands at the front. -/
theorem frame_unique {input first second : List β} (hfirst : frames.IsFrame first)
    (hsecond : frames.IsFrame second) (hinput : first <+: input) (hinput' : second <+: input) :
    first = second := by
  rcases List.prefix_or_prefix_of_prefix hinput hinput' with ⟨more, hmore⟩ | ⟨more, hmore⟩
  · rw [← hmore] at hsecond
    rw [← hmore, frames.prefix_free hfirst hsecond, List.append_nil]
  · rw [← hmore] at hfirst
    rw [← hmore, frames.prefix_free hsecond hfirst, List.append_nil]

theorem not_starts_nil : ¬ Starts frames [] := by
  rintro ⟨frame, hframe, hinput⟩
  rw [List.prefix_nil.mp hinput] at hframe
  exact frames.not_nil hframe

/-- A front that is a whole frame is not the beginning of another. -/
theorem not_unfinished {input : List β} (h : Starts frames input) : ¬ Unfinished frames input := by
  rintro ⟨-, more, hmore, hlong⟩
  obtain ⟨frame, hframe, rest, rfl⟩ := h
  rw [List.append_assoc] at hlong
  have hnil := frames.prefix_free hframe hlong
  exact hmore (List.append_eq_nil_iff.mp hnil).2

/-! ## The reading -/

/-- An input is read in one way only. -/
theorem greedy_unique {offset : Nat} {input : List β} {emitted emitted' : List (Nat × List β)}
    {stop stop' : Nat} (h : Greedy frames offset input emitted stop)
    (h' : Greedy frames offset input emitted' stop') : emitted' = emitted ∧ stop' = stop := by
  induction h generalizing emitted' stop' with
  | emit hframe hinput _ ih =>
    cases h' with
    | emit hframe' hinput' hrest =>
      rw [frame_unique hframe' hframe hinput' hinput] at hrest ⊢
      obtain ⟨rfl, rfl⟩ := ih hrest
      exact ⟨rfl, rfl⟩
    | skip _ hstarts => exact absurd ⟨_, hframe, hinput⟩ hstarts
    | stop hend =>
      rcases hend with rfl | hunfinished
      · exact absurd ⟨_, hframe, hinput⟩ not_starts_nil
      · exact absurd hunfinished (not_unfinished ⟨_, hframe, hinput⟩)
  | skip hne hstarts hunfinished _ ih =>
    cases h' with
    | emit hframe' hinput' => exact absurd ⟨_, hframe', hinput'⟩ hstarts
    | skip _ _ _ hrest => exact ih hrest
    | stop hend => exact absurd hend (not_or.mpr ⟨hne, hunfinished⟩)
  | stop hend =>
    cases h' with
    | emit hframe' hinput' =>
      rcases hend with rfl | hunfinished
      · exact absurd ⟨_, hframe', hinput'⟩ not_starts_nil
      · exact absurd hunfinished (not_unfinished ⟨_, hframe', hinput'⟩)
    | skip hne _ hunfinished => exact absurd hend (not_or.mpr ⟨hne, hunfinished⟩)
    | stop _ => exact ⟨rfl, rfl⟩

/-- No frame that starts before the stop is lost: it is emitted, or it starts
inside a frame that is. -/
theorem greedy_covers {offset : Nat} {input : List β} {emitted : List (Nat × List β)} {stop : Nat}
    (h : Greedy frames offset input emitted stop) {before frame : List β}
    (hinput : before ++ frame <+: input) (hframe : frames.IsFrame frame)
    (hstop : offset + before.length < stop) :
    (offset + before.length, frame) ∈ emitted ∨
      ∃ e ∈ emitted, e.1 < offset + before.length ∧
        offset + before.length < e.1 + e.2.length := by
  induction h generalizing before with
  | stop _ => omega
  | @skip offset input emitted stop hne hstarts _ _ ih =>
    match before, input with
    | [], _ => exact absurd ⟨frame, hframe, hinput⟩ hstarts
    | _ :: before, [] => exact absurd rfl hne
    | _ :: before, _ :: input =>
      have hlength : offset + 1 + before.length = offset + (before.length + 1) := by omega
      have hrest := ih (List.cons_prefix_cons.mp hinput).2 (by rwa [hlength])
      rwa [hlength] at hrest
  | @emit offset input first emitted stop hfirst hprefix _ ih =>
    rcases Nat.lt_or_ge before.length first.length with hinside | hafter
    · rcases Nat.eq_zero_or_pos before.length with hzero | hpos
      · rw [List.length_eq_zero_iff] at hzero
        subst hzero
        rw [frame_unique hframe hfirst hinput hprefix]
        exact Or.inl List.mem_cons_self
      · exact Or.inr ⟨(offset, first), List.mem_cons_self, Nat.lt_add_of_pos_right hpos,
          Nat.add_lt_add_left hinside offset⟩
    · have hrest := hinput.drop first.length
      rw [List.drop_append_of_le_length hafter] at hrest
      have hlength : offset + first.length + (before.drop first.length).length =
          offset + before.length := by
        rw [List.length_drop]
        omega
      have hfound := ih hrest (by omega)
      rw [hlength] at hfound
      rcases hfound with hmem | ⟨e, hmem, hbounds⟩
      · exact Or.inl (List.mem_cons_of_mem _ hmem)
      · exact Or.inr ⟨e, List.mem_cons_of_mem _ hmem, hbounds⟩

/-- An input that is shorter than every frame has nothing to emit. -/
theorem greedy_short {size : Nat} (hsize : ∀ frame, frames.IsFrame frame → size ≤ frame.length)
    (offset : Nat) {input : List β} (hshort : input.length < size) :
    ∃ stop, Greedy frames offset input [] stop := by
  induction input generalizing offset with
  | nil => exact ⟨offset, .stop (Or.inl rfl)⟩
  | cons first rest ih =>
    by_cases hunfinished : Unfinished frames (first :: rest)
    · exact ⟨offset, .stop (Or.inr hunfinished)⟩
    · have hstarts : ¬ Starts frames (first :: rest) := by
        rintro ⟨frame, hframe, hinput⟩
        have hle := hsize frame hframe
        have hle' := hinput.length_le
        omega
      rw [List.length_cons] at hshort
      obtain ⟨stop, hrest⟩ := ih (offset + 1) (by omega)
      exact ⟨stop, .skip (List.cons_ne_nil _ _) hstarts hunfinished hrest⟩

end greedy_scan
