-- A source gives the next part of a stream when it is polled, and sometimes nothing
-- yet. Whoever polls it until there is enough reads the stream.
import Mathlib.Data.List.Basic
import Mathlib.Tactic

namespace polled_source

universe u v

/-- A poll with a limit and some turns gives at most so many elements. What it gives and
what still comes make up the stream, and `work` bounds the polls that give nothing. -/
structure Source (σ : Type u) (β : Type v) where
  poll : Nat → Nat → σ → List β × σ
  upcoming : σ → List β
  work : σ → Nat
  poll_le : ∀ limit turns state, (poll limit turns state).1.length ≤ limit
  poll_upcoming : ∀ limit turns state,
    (poll limit turns state).1 ++ upcoming (poll limit turns state).2 = upcoming state
  work_le : ∀ limit turns state, work (poll limit turns state).2 ≤ work state
  work_lt : ∀ limit turns state, 0 < limit → 0 < turns → upcoming state ≠ [] →
    (poll limit turns state).1 = [] → work (poll limit turns state).2 < work state

section
variable {σ : Type u} {β : Type v} (source : Source σ β)

/-- Polls until there are `size` elements, once for each entry of the patience. -/
def gather (size : Nat) : List Nat → List β → σ → Option (List β) × σ
  | [], data, state => (if data.length < size then none else some data, state)
  | turns :: later, data, state =>
    if data.length < size then
      let polled := source.poll (size - data.length) turns state
      gather size later (data ++ polled.1) polled.2
    else (some data, state)

/-- The patience suffices for all that still comes. -/
structure Patient (patience : List Nat) (state : σ) : Prop where
  turns : ∀ turns ∈ patience, 0 < turns
  polls : (source.upcoming state).length + source.work state ≤ patience.length

variable {source} {size : Nat} {patience : List Nat} {data : List β} {state : σ}

/-- Nothing is lost and nothing comes twice. -/
theorem gather_some {found : List β} (h : (gather source size patience data state).1 = some found)
    (hdata : data.length ≤ size) :
    found.length = size ∧
      found ++ source.upcoming (gather source size patience data state).2 =
        data ++ source.upcoming state := by
  induction patience generalizing data state with
  | nil =>
    rw [gather] at h ⊢
    by_cases hshort : data.length < size
    · simp [hshort] at h
    · simp only [hshort, if_false, Option.some.injEq] at h
      subst h
      exact ⟨by omega, rfl⟩
  | cons turns later ih =>
    rw [gather] at h ⊢
    by_cases hshort : data.length < size
    · rw [if_pos hshort] at h ⊢
      dsimp only at h ⊢
      have hle := source.poll_le (size - data.length) turns state
      obtain ⟨hlength, hstream⟩ := ih h (by rw [List.length_append]; omega)
      refine ⟨hlength, ?_⟩
      rw [hstream, List.append_assoc, source.poll_upcoming]
    · rw [if_neg hshort, Option.some.injEq] at h
      rw [if_neg hshort]
      subst h
      exact ⟨by omega, rfl⟩

theorem gather_suffix : source.upcoming (gather source size patience data state).2 <:+
    source.upcoming state := by
  induction patience generalizing data state with
  | nil => exact List.suffix_refl _
  | cons turns later ih =>
    rw [gather]
    by_cases hshort : data.length < size
    · rw [if_pos hshort]
      dsimp only
      refine ih.trans ⟨_, source.poll_upcoming (size - data.length) turns state⟩
    · rw [if_neg hshort]

theorem gather_work : source.work (gather source size patience data state).2 ≤
    source.work state := by
  induction patience generalizing data state with
  | nil => exact Nat.le_refl _
  | cons turns later ih =>
    rw [gather]
    by_cases hshort : data.length < size
    · rw [if_pos hshort]
      exact ih.trans (source.work_le _ _ _)
    · rw [if_neg hshort]

/-- One poll uses up an entry, and either gives something or does some work. -/
theorem poll_progress {limit turns : Nat} (hlimit : 0 < limit) (hturns : 0 < turns)
    (hmore : source.upcoming state ≠ []) :
    (source.upcoming (source.poll limit turns state).2).length +
        source.work (source.poll limit turns state).2 <
      (source.upcoming state).length + source.work state := by
  have hlength := congrArg List.length (source.poll_upcoming limit turns state)
  rw [List.length_append] at hlength
  have hle := source.work_le limit turns state
  by_cases hnone : (source.poll limit turns state).1 = []
  · have hlt := source.work_lt limit turns state hlimit hturns hmore hnone
    rw [hnone, List.length_nil] at hlength
    omega
  · have hpositive := List.length_pos_iff.mpr hnone
    omega

/-- With enough patience, what comes is read. -/
theorem gather_patient (hpatient : Patient source patience state)
    (henough : size ≤ data.length + (source.upcoming state).length) :
    (gather source size patience data state).1 ≠ none := by
  induction patience generalizing data state with
  | nil =>
    have hpolls := hpatient.polls
    rw [List.length_nil] at hpolls
    rw [gather]
    simp only [ne_eq, ite_eq_left_iff, reduceCtorEq, imp_false, not_not]
    omega
  | cons turns later ih =>
    rw [gather]
    by_cases hshort : data.length < size
    · rw [if_pos hshort]
      have hmore : source.upcoming state ≠ [] := by
        intro hnil
        rw [hnil, List.length_nil] at henough
        omega
      have hprogress := @poll_progress σ β source state (size - data.length) turns (by omega)
        (hpatient.turns turns (List.mem_cons_self ..)) hmore
      have hpolls := hpatient.polls
      rw [List.length_cons] at hpolls
      have hlength := congrArg List.length
        (source.poll_upcoming (size - data.length) turns state)
      rw [List.length_append] at hlength
      refine ih ⟨fun t ht => hpatient.turns t (List.mem_cons_of_mem _ ht), by omega⟩ ?_
      rw [List.length_append]
      omega
    · rw [if_neg hshort]
      exact Option.some_ne_none data

end

end polled_source
