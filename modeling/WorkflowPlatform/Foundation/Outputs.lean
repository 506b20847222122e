import Mathlib.Data.List.Forall2
import WorkflowPlatform.Foundation.Run

/-! # The outputs of a run

The steps of a system give outputs while its state keeps rows that are only added to. If
the steps of some kind give one output for each row they add, and every other step gives
more outputs than rows, then the outputs of a run stand for its rows, one for one and in
order, exactly when all of its steps are of that kind.
-/

namespace SerialRun

universe u v w x

variable {State : Type u} {Call : Type v} {Output : Type w} {Row : Type x}
  (step : State → Call → State) (out : State → Call → List Output)

/-- What the steps of a run give, one after the other. -/
def outputs : State → List Call → List Output
  | _, [] => []
  | state, call :: rest => out state call ++ outputs (step state call) rest

@[simp] theorem outputs_nil (state : State) : outputs step out state [] = [] := rfl

@[simp] theorem outputs_cons (state : State) (call : Call) (rest : List Call) :
    outputs step out state (call :: rest) =
      out state call ++ outputs step out (step state call) rest := rfl

/-- The outputs of the steps that meet a condition stand for the rows they add. -/
structure Recorded (invariant : State → Prop) (admits : Call → Prop)
    (holds : State → Call → Prop) (rows : State → List Row)
    (records : State → Output → Row → Prop) : Prop where
  keeps : ∀ state call, invariant state → invariant (step state call)
  exact : ∀ state call, invariant state → admits call → holds state call →
    ∃ added, rows (step state call) = rows state ++ added ∧
      List.Forall₂ (records (step state call)) (out state call) added
  excess : ∀ state call, invariant state → admits call → ¬holds state call →
    (rows (step state call)).length < (rows state).length + (out state call).length
  persists : ∀ state call output row, invariant state → records state output row →
    records (step state call) output row

variable {step out} {invariant : State → Prop} {admits : Call → Prop}
  {holds : State → Call → Prop} {rows : State → List Row} {records : State → Output → Row → Prop}
  {state : State} {calls : List Call}

theorem Recorded.forall₂ (hrecorded : Recorded step out invariant admits holds rows records)
    (hstate : invariant state) (hadmits : ∀ call ∈ calls, admits call)
    (hcalls : EachStep step holds state calls) {earlier : List Output}
    (hearlier : List.Forall₂ (records state) earlier (rows state)) :
    List.Forall₂ (records (after step state calls)) (earlier ++ outputs step out state calls)
      (rows (after step state calls)) := by
  -- the outputs so far stand for the rows so far
  induction calls generalizing state earlier with
  | nil => simpa using hearlier
  | cons call rest ih =>
      obtain ⟨hfirst, hrest⟩ := List.forall_mem_cons.mp hadmits
      obtain ⟨added, hrows, hadded⟩ := hrecorded.exact state call hstate hfirst hcalls.1
      have hkept : List.Forall₂ (records (step state call)) earlier (rows state) :=
        hearlier.imp fun output row => hrecorded.persists state call output row hstate
      have hnext : List.Forall₂ (records (step state call)) (earlier ++ out state call)
          (rows (step state call)) := by
        rw [hrows]
        exact List.rel_append hkept hadded
      have hafter := ih (hrecorded.keeps state call hstate) hrest hcalls.2 hnext
      rwa [List.append_assoc] at hafter

/-- There are never fewer outputs than rows, and more after a step of another kind. -/
theorem Recorded.length (hrecorded : Recorded step out invariant admits holds rows records)
    (hstate : invariant state) (hadmits : ∀ call ∈ calls, admits call) :
    (rows (after step state calls)).length ≤
        (rows state).length + (outputs step out state calls).length ∧
      (¬EachStep step holds state calls → (rows (after step state calls)).length <
        (rows state).length + (outputs step out state calls).length) := by
  induction calls generalizing state with
  | nil => exact ⟨Nat.le_add_right _ _, fun hnot => absurd trivial hnot⟩
  | cons call rest ih =>
      obtain ⟨hfirst, hrest⟩ := List.forall_mem_cons.mp hadmits
      obtain ⟨hle, hlt⟩ := ih (hrecorded.keeps state call hstate) hrest
      rw [after_cons, outputs_cons, List.length_append]
      by_cases hholds : holds state call
      · obtain ⟨added, hrows, hadded⟩ := hrecorded.exact state call hstate hfirst hholds
        have hlength := hadded.length_eq
        rw [hrows, List.length_append] at hle hlt
        refine ⟨by omega, ?_⟩
        intro hnot
        have := hlt fun hothers => hnot ⟨hholds, hothers⟩
        omega
      · have hmore := hrecorded.excess state call hstate hfirst hholds
        exact ⟨by omega, fun _ => by omega⟩

/-- From a state without rows, the outputs stand for the rows exactly if every step meets the
condition. -/
theorem Recorded.outputs_iff (hrecorded : Recorded step out invariant admits holds rows records)
    (hstate : invariant state) (hadmits : ∀ call ∈ calls, admits call) (hempty : rows state = []) :
    List.Forall₂ (records (after step state calls)) (outputs step out state calls)
        (rows (after step state calls)) ↔ EachStep step holds state calls := by
  constructor
  · intro hforall
    by_contra hnot
    have hmore := (hrecorded.length hstate hadmits).2 hnot
    rw [hempty, hforall.length_eq, List.length_nil] at hmore
    omega
  · intro hcalls
    refine @Recorded.forall₂ _ _ _ _ _ _ _ _ _ _ _ _ _ hrecorded hstate hadmits hcalls [] ?_
    rw [hempty]
    exact .nil

end SerialRun
