import Mathlib.Logic.Relation
import Mathlib.Data.List.Basic

/-! # Serial runs

A system with one step function is run on a list of calls, one after the other.
Invariants, relations between an earlier and a later state, and conditions on
every step of a run are stated once here.
-/

namespace SerialRun

universe u v

variable {State : Type u} {Call : Type v} (step : State → Call → State)

/-- The state after a run. -/
def after (state : State) (calls : List Call) : State := calls.foldl step state

/-- A property of every step of a run: of the state before it and its call. -/
def EachStep (holds : State → Call → Prop) : State → List Call → Prop
  | _, [] => True
  | state, call :: rest => holds state call ∧ EachStep holds (step state call) rest

@[simp] theorem after_nil (state : State) : after step state [] = state := rfl

@[simp] theorem after_cons (state : State) (call : Call) (rest : List Call) :
    after step state (call :: rest) = after step (step state call) rest := rfl

theorem after_append (state : State) (first second : List Call) :
    after step state (first ++ second) = after step (after step state first) second :=
  List.foldl_append

theorem after_concat (state : State) (calls : List Call) (call : Call) :
    after step state (calls ++ [call]) = step (after step state calls) call := by
  rw [after_append, after_cons, after_nil]

variable {step}

theorem eachStep_append {holds : State → Call → Prop} {state : State} {first second : List Call} :
    EachStep step holds state (first ++ second) ↔
      EachStep step holds state first ∧ EachStep step holds (after step state first) second := by
  induction first generalizing state with
  | nil => simp [EachStep]
  | cons call rest ih => simp only [List.cons_append, EachStep, ih, after_cons, and_assoc]

/-- An invariant of the steps that meet a condition holds after every run of such steps. -/
theorem invariant_of_eachStep (invariant : State → Prop) {holds : State → Call → Prop}
    (hstep : ∀ state call, invariant state → holds state call → invariant (step state call))
    {state : State} (calls : List Call) (hstate : invariant state)
    (hcalls : EachStep step holds state calls) : invariant (after step state calls) := by
  induction calls generalizing state with
  | nil => exact hstate
  | cons call rest ih => exact ih (hstep state call hstate hcalls.1) hcalls.2

theorem eachStep_true (state : State) (calls : List Call) :
    EachStep step (fun _ _ => True) state calls := by
  induction calls generalizing state with
  | nil => trivial
  | cons call rest ih => exact ⟨trivial, ih _⟩

/-- An invariant of every step holds after every run. -/
theorem invariant (invariant : State → Prop)
    (hstep : ∀ state call, invariant state → invariant (step state call))
    {state : State} (calls : List Call) (hstate : invariant state) :
    invariant (after step state calls) :=
  invariant_of_eachStep invariant (fun state call hstate _ => hstep state call hstate) calls hstate
    (eachStep_true state calls)

/-- A reflexive and transitive relation that every step from an invariant state
respects relates the start of a run to its end. -/
theorem related (invariant : State → Prop) (relation : State → State → Prop)
    (hrefl : ∀ state, relation state state)
    (htrans : ∀ first second third, relation first second → relation second third →
      relation first third)
    (hinvariant : ∀ state call, invariant state → invariant (step state call))
    (hstep : ∀ state call, invariant state → relation state (step state call))
    {state : State} (calls : List Call) (hstate : invariant state) :
    relation state (after step state calls) := by
  induction calls generalizing state with
  | nil => exact hrefl state
  | cons call rest ih =>
      exact htrans _ _ _ (hstep state call hstate) (ih (hinvariant state call hstate))

/-- A condition on steps holds along a run as soon as it holds of every call of
the run in every state reached on the way. -/
theorem eachStep_iff {holds : State → Call → Prop} {state : State} {calls : List Call} :
    EachStep step holds state calls ↔
      ∀ before call rest, calls = before ++ call :: rest →
        holds (after step state before) call := by
  induction calls generalizing state with
  | nil => simp [EachStep]
  | cons head tail ih =>
      constructor
      · rintro ⟨hhead, htail⟩ before call rest heq
        cases before with
        | nil =>
            obtain ⟨rfl, -⟩ := List.cons.inj heq
            exact hhead
        | cons first middle =>
            rw [List.cons_append] at heq
            obtain ⟨rfl, hrest⟩ := List.cons.inj heq
            exact (ih.mp htail) middle call rest hrest
      · intro hall
        refine ⟨hall [] head tail rfl, ih.mpr ?_⟩
        intro before call rest heq
        exact hall (head :: before) call rest (by rw [heq, List.cons_append])

/-- Two runs whose calls are related end in the same state when no step of the first
tells related calls apart. -/
theorem after_eq_of_insensitive (invariant : State → Prop) {holds : State → Call → Prop}
    {related : Call → Call → Prop}
    (hinvariant : ∀ state call, invariant state → invariant (step state call))
    (hstep : ∀ state call call', invariant state → holds state call → related call call' →
      step state call' = step state call)
    {state : State} {calls calls' : List Call} (hstate : invariant state)
    (hcalls : EachStep step holds state calls) (hrelated : List.Forall₂ related calls calls') :
    after step state calls' = after step state calls := by
  induction hrelated generalizing state with
  | nil => rfl
  | cons hcall _ ih =>
      rw [after_cons, after_cons, hstep _ _ _ hstate hcalls.1 hcall]
      exact ih (hinvariant _ _ hstate) hcalls.2

end SerialRun
