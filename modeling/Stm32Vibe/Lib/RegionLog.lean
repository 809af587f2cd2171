-- Operations on a memory that each rewrite one range of it, and what a log of
-- them leaves.
import Mathlib

namespace region_log

/-- The addresses from `start` on. -/
structure Region where
  start : Nat
  length : Nat
deriving DecidableEq, Repr

def Region.Has (r : Region) (i : Nat) : Prop := r.start ≤ i ∧ i < r.start + r.length

instance (r : Region) (i : Nat) : Decidable (r.Has i) := inferInstanceAs (Decidable (_ ∧ _))

def Region.Within (r outer : Region) : Prop :=
  outer.start ≤ r.start ∧ r.start + r.length ≤ outer.start + outer.length

instance (r outer : Region) : Decidable (r.Within outer) := inferInstanceAs (Decidable (_ ∧ _))

theorem Region.Within.has {r outer : Region} (h : r.Within outer) {i : Nat} (hi : r.Has i) :
    outer.Has i := by
  unfold Within Has at *
  omega

section
variable {ο β : Type} (region : ο → Region) (content : ο → (Nat → β) → Nat → β)

/-- One operation: its range holds the new content, which may depend on what
stood in the memory. -/
def perform (m : Nat → β) (op : ο) : Nat → β := fun i =>
  if (region op).Has i then content op m i else m i

def replay (m : Nat → β) (ops : List ο) : Nat → β := ops.foldl (perform region content) m

@[simp] theorem replay_cons (m : Nat → β) (op : ο) (ops : List ο) :
    replay region content m (op :: ops) =
      replay region content (perform region content m op) ops := rfl

theorem replay_append (m : Nat → β) (ops more : List ο) :
    replay region content m (ops ++ more) =
      replay region content (replay region content m ops) more := by
  simp [replay]

/-- An address stays as it was when no operation has it in its range. -/
theorem replay_frame {m : Nat → β} {ops : List ο} {i : Nat}
    (h : ∀ op ∈ ops, ¬ (region op).Has i) : replay region content m ops i = m i := by
  induction ops generalizing m with
  | nil => rfl
  | cons op ops ih =>
    rw [replay_cons, ih fun op' ho => h op' (List.mem_cons_of_mem _ ho)]
    exact if_neg (h op List.mem_cons_self)

/-- A log that keeps to a range leaves everything outside it. -/
theorem replay_confined {m : Nat → β} {ops : List ο} {outer : Region} {i : Nat}
    (h : ∀ op ∈ ops, (region op).Within outer) (hi : ¬ outer.Has i) :
    replay region content m ops i = m i := by
  apply replay_frame
  intro op ho hop
  exact hi ((h op ho).has hop)

/-- What every operation of a log keeps at an address, the log keeps. -/
theorem replay_keeps {p : β → Prop} {m : Nat → β} {ops : List ο} {i : Nat} (hm : p (m i))
    (h : ∀ op ∈ ops, ∀ m : Nat → β, p (m i) → p (content op m i)) :
    p (replay region content m ops i) := by
  induction ops generalizing m with
  | nil => exact hm
  | cons op ops ih =>
    rw [replay_cons]
    apply ih _ fun op' ho => h op' (List.mem_cons_of_mem _ ho)
    unfold perform
    split
    · exact h op List.mem_cons_self m hm
    · exact hm

/-- Operations that all write one value leave it wherever one of them reaches. -/
theorem replay_covered {value : β} {m : Nat → β} {ops : List ο} {i : Nat}
    (h : ∀ op ∈ ops, ∀ m : Nat → β, content op m i = value)
    (hcovered : ∃ op ∈ ops, (region op).Has i) : replay region content m ops i = value := by
  obtain ⟨op, hop, hi⟩ := hcovered
  obtain ⟨before, after, rfl⟩ := List.append_of_mem hop
  rw [replay_append, replay_cons]
  have hat : perform region content (replay region content m before) op i = value := by
    rw [perform, if_pos hi]
    exact h op hop _
  apply @replay_keeps _ _ region content (· = value) _ _ _ hat
  intro op' ho m' _
  exact h op' (List.mem_append_right _ (List.mem_cons_of_mem _ ho)) m'

end

end region_log
