-- Two machines that read their inputs side by side. When one step from related
-- states on related inputs gives related outputs and related states, so does
-- every run, output by output.
import Mathlib.Data.List.Forall2

namespace lockstep

universe u

variable {σ τ ι κ ο ω : Type u}

/-- The outputs of a machine on a list of inputs. -/
def outputs (step : σ → ι → ο × σ) : σ → List ι → List ο
  | _, [] => []
  | state, input :: inputs => (step state input).1 :: outputs step (step state input).2 inputs

/-- The state of a machine after a list of inputs. -/
def final (step : σ → ι → ο × σ) (state : σ) (inputs : List ι) : σ :=
  inputs.foldl (fun state input => (step state input).2) state

/-- One step of both machines keeps the states related, and gives related outputs. -/
structure Simulates (step : σ → ι → ο × σ) (step' : τ → κ → ω × τ) (Inputs : ι → κ → Prop)
    (States : σ → τ → Prop) (Outputs : ο → ω → Prop) : Prop where
  output_step : ∀ {state state' input input'}, States state state' → Inputs input input' →
    Outputs (step state input).1 (step' state' input').1
  state_step : ∀ {state state' input input'}, States state state' → Inputs input input' →
    States (step state input).2 (step' state' input').2

section
variable {step : σ → ι → ο × σ} {step' : τ → κ → ω × τ} {Inputs : ι → κ → Prop}
  {States : σ → τ → Prop} {Outputs : ο → ω → Prop}

theorem Simulates.run (h : Simulates step step' Inputs States Outputs) {inputs : List ι}
    {inputs' : List κ} (hinputs : List.Forall₂ Inputs inputs inputs') {state : σ} {state' : τ}
    (hstates : States state state') :
    List.Forall₂ Outputs (outputs step state inputs) (outputs step' state' inputs') ∧
      States (final step state inputs) (final step' state' inputs') := by
  induction hinputs generalizing state state' with
  | nil => exact ⟨.nil, hstates⟩
  | cons hinput _ ih =>
    obtain ⟨houtputs, hfinal⟩ := ih (h.state_step hstates hinput)
    exact ⟨.cons (h.output_step hstates hinput) houtputs, hfinal⟩

end

/-! ## Until a condition fails -/

/-- Every step of a run meets a condition on the state before it and its input. -/
def Along (step : σ → ι → ο × σ) (cond : σ → ι → Prop) : σ → List ι → Prop
  | _, [] => True
  | state, input :: inputs => cond state input ∧ Along step cond (step state input).2 inputs

/-- The machines stay together on the steps that meet a condition, and give
unrelated outputs on the others. -/
structure SimulatesWhile (step : σ → ι → ο × σ) (step' : τ → κ → ω × τ) (cond : σ → ι → Prop)
    (Inputs : ι → κ → Prop) (States : σ → τ → Prop) (Outputs : ο → ω → Prop) : Prop where
  output_step : ∀ {state state' input input'}, States state state' → Inputs input input' →
    cond state input → Outputs (step state input).1 (step' state' input').1
  state_step : ∀ {state state' input input'}, States state state' → Inputs input input' →
    cond state input → States (step state input).2 (step' state' input').2
  parts_step : ∀ {state state' input input'}, States state state' → Inputs input input' →
    ¬ cond state input → ¬ Outputs (step state input).1 (step' state' input').1

section
variable {step : σ → ι → ο × σ} {step' : τ → κ → ω × τ} {cond : σ → ι → Prop}
  {Inputs : ι → κ → Prop} {States : σ → τ → Prop} {Outputs : ο → ω → Prop}

/-- The outputs are related exactly in the runs whose steps meet the condition. -/
theorem SimulatesWhile.outputs_iff (h : SimulatesWhile step step' cond Inputs States Outputs)
    {inputs : List ι} {inputs' : List κ} (hinputs : List.Forall₂ Inputs inputs inputs') {state : σ}
    {state' : τ} (hstates : States state state') :
    List.Forall₂ Outputs (outputs step state inputs) (outputs step' state' inputs') ↔
      Along step cond state inputs := by
  induction hinputs generalizing state state' with
  | nil => exact iff_of_true .nil trivial
  | @cons input input' rest rest' hinput _ ih =>
    simp only [outputs, List.forall₂_cons, Along]
    by_cases hcond : cond state input
    · have hout := h.output_step hstates hinput hcond
      have hrest := ih (h.state_step hstates hinput hcond)
      simp only [hout, hcond, true_and, hrest]
    · have hout := h.parts_step hstates hinput hcond
      simp only [hout, hcond, false_and]

theorem SimulatesWhile.final (h : SimulatesWhile step step' cond Inputs States Outputs)
    {inputs : List ι} {inputs' : List κ} (hinputs : List.Forall₂ Inputs inputs inputs') {state : σ}
    {state' : τ} (hstates : States state state') (halong : Along step cond state inputs) :
    States (lockstep.final step state inputs) (lockstep.final step' state' inputs') := by
  induction hinputs generalizing state state' with
  | nil => exact hstates
  | cons hinput _ ih => exact ih (h.state_step hstates hinput halong.1) halong.2

end

end lockstep
