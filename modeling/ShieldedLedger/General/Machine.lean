import Mathlib.Data.List.Basic

/-!
# Runs of deterministic machines

A machine consumes one input at a time, changes its state and emits one output.
The rules below reduce a property of every run to a property of one step: an
invariant, a correspondence with another machine, and the equality of the
outputs of two related machines.
-/

namespace Machine

universe u v w x

variable {σ : Type u} {τ : Type x} {ι : Type v} {ω : Type w}

/-- Final state and outputs of a run, in input order. -/
def run (step : σ → ι → σ × ω) : σ → List ι → σ × List ω
  | state, [] => (state, [])
  | state, input :: inputs =>
      let next := step state input
      let rest := run step next.1 inputs
      (rest.1, next.2 :: rest.2)

variable {step : σ → ι → σ × ω}

@[simp] theorem run_nil (state : σ) : run step state [] = (state, []) := rfl

@[simp] theorem run_cons (state : σ) (input : ι) (inputs : List ι) :
    run step state (input :: inputs) =
      ((run step (step state input).1 inputs).1,
        (step state input).2 :: (run step (step state input).1 inputs).2) := rfl

@[simp] theorem length_outputs (state : σ) (inputs : List ι) :
    (run step state inputs).2.length = inputs.length := by
  induction inputs generalizing state with
  | nil => rfl
  | cons input inputs ih => simp [ih]

theorem run_append (state : σ) (left right : List ι) :
    run step state (left ++ right) =
      ((run step (run step state left).1 right).1,
        (run step state left).2 ++ (run step (run step state left).1 right).2) := by
  induction left generalizing state with
  | nil => rfl
  | cons input inputs ih => simp [ih]

/-- The output at an index is that of its input, in the state the inputs before it lead to. -/
theorem getElem?_outputs (state : σ) (inputs : List ι) (k : ℕ) :
    (run step state inputs).2[k]? =
      inputs[k]?.map fun input => (step (run step state (inputs.take k)).1 input).2 := by
  induction inputs generalizing state k with
  | nil => rfl
  | cons input inputs ih =>
      cases k with
      | zero => rfl
      | succ k => exact ih _ k

/-- The first outputs are those of the first inputs. -/
theorem take_outputs (state : σ) (inputs : List ι) (k : ℕ) :
    (run step state inputs).2.take k = (run step state (inputs.take k)).2 := by
  induction inputs generalizing state k with
  | nil => simp
  | cons input inputs ih =>
      cases k with
      | zero => rfl
      | succ k => exact congrArg (_ :: ·) (ih _ k)

/-- Every input meets a condition in the state that consumes it. -/
def Along (step : σ → ι → σ × ω) (condition : σ → ι → Prop) : σ → List ι → Prop
  | _, [] => True
  | state, input :: inputs =>
      condition state input ∧ Along step condition (step state input).1 inputs

theorem along_of_forall {condition : σ → ι → Prop} {inputs : List ι}
    (all : ∀ input ∈ inputs, ∀ state, condition state input) (state : σ) :
    Along step condition state inputs := by
  induction inputs generalizing state with
  | nil => trivial
  | cons input inputs ih =>
      exact ⟨all input (by simp) state,
        ih (fun item membership => all item (by simp [membership])) _⟩

/-- A property kept by every step that meets the condition holds after a run. -/
theorem run_invariant (step : σ → ι → σ × ω) (inv : σ → Prop) (condition : σ → ι → Prop)
    (preserved : ∀ state input, inv state → condition state input → inv (step state input).1)
    {state : σ} (initial : inv state) {inputs : List ι}
    (along : Along step condition state inputs) :
    inv (run step state inputs).1 := by
  induction inputs generalizing state with
  | nil => exact initial
  | cons input inputs ih => exact ih (preserved state input initial along.1) along.2

/-- Where each step's output is good exactly under a side condition, all outputs of a
run are good exactly when every step meets it. -/
theorem forall_outputs_iff (inv : σ → Prop) {condition side : σ → ι → Prop} {good : ω → Prop}
    (preserved : ∀ state input, inv state → condition state input → inv (step state input).1)
    (exact : ∀ state input, inv state → condition state input →
      (good (step state input).2 ↔ side state input))
    {state : σ} (initial : inv state) {inputs : List ι}
    (along : Along step condition state inputs) :
    (∀ output ∈ (run step state inputs).2, good output) ↔ Along step side state inputs := by
  induction inputs generalizing state with
  | nil => simp [Along]
  | cons input inputs ih =>
      have rest := ih (preserved state input initial along.1) along.2
      have first := exact state input initial along.1
      simp only [run_cons, List.mem_cons, forall_eq_or_imp, Along, first, rest]

/-- A property of the past inputs and outputs and of the state, kept by every
step, holds after a run of that run's own history. -/
theorem run_history (step : σ → ι → σ × ω) (inv : List (ι × ω) → σ → Prop)
    (preserved : ∀ past state input, inv past state →
      inv (past ++ [(input, (step state input).2)]) (step state input).1)
    {past : List (ι × ω)} {state : σ} (initial : inv past state) (inputs : List ι) :
    inv (past ++ inputs.zip (run step state inputs).2) (run step state inputs).1 := by
  induction inputs generalizing past state with
  | nil => simpa using initial
  | cons input inputs ih =>
      have next := ih (preserved past state input initial)
      simpa [List.append_assoc] using next

/-- A machine whose steps, seen through a projection of the state and of the inputs, are those
of another machine runs like that machine. -/
theorem run_project {κ : Type*} (step : σ → ι → σ × ω) (step' : τ → κ → τ × ω)
    (project : σ → τ) (translate : ι → κ)
    (projected : ∀ state input, step' (project state) (translate input) =
      (project (step state input).1, (step state input).2))
    (state : σ) (inputs : List ι) :
    run step' (project state) (inputs.map translate) =
      (project (run step state inputs).1, (run step state inputs).2) := by
  induction inputs generalizing state with
  | nil => rfl
  | cons input inputs ih => simp [projected, ih]

/-- Two machines in related states emit equal outputs along every run whose
inputs meet the condition, and end in related states, when one step does. -/
theorem run_simulation {step' : τ → ι → τ × ω} (rel : σ → τ → Prop)
    {condition : σ → ι → Prop}
    (simulated : ∀ left right input, rel left right → condition left input →
      (step left input).2 = (step' right input).2 ∧
        rel (step left input).1 (step' right input).1)
    (left : σ) (right : τ) (related : rel left right) {inputs : List ι}
    (along : Along step condition left inputs) :
    (run step left inputs).2 = (run step' right inputs).2 ∧
      rel (run step left inputs).1 (run step' right inputs).1 := by
  induction inputs generalizing left right with
  | nil => exact ⟨rfl, related⟩
  | cons input inputs ih =>
      have one := simulated left right input related along.1
      have rest := ih _ _ one.2 along.2
      exact ⟨by simp [one.1, rest.1], rest.2⟩

end Machine
