import Mathlib.Logic.Function.Iterate
import WorkflowPlatform.Foundation.Run

/-! # Potentials

A potential bounds how often something can still happen: every step at which it
happens uses some of it up, and no other step adds to it. Whoever can always make it
happen until a goal is reached therefore reaches the goal, within as many steps as
there is potential.
-/

namespace SerialRun

universe u v

variable {State : Type u} {Call : Type v} (step : State → Call → State)

/-- How often a run meets a condition on its steps. -/
def occurrences (counts : State → Call → Bool) : State → List Call → ℕ
  | _, [] => 0
  | state, call :: rest =>
      (counts state call).toNat + occurrences counts (step state call) rest

variable {step} {counts : State → Call → Bool} {potential : State → ℕ}

/-- What has happened and what can still happen are together no more than what could
happen at first. -/
theorem occurrences_add_le (invariant : State → Prop) (allowed : Call → Prop)
    (hkeeps : ∀ state call, invariant state → allowed call → invariant (step state call))
    (huses : ∀ state call, invariant state → allowed call →
      (counts state call).toNat + potential (step state call) ≤ potential state)
    {state : State} (hstate : invariant state) {calls : List Call}
    (hcalls : ∀ call ∈ calls, allowed call) :
    occurrences step counts state calls + potential (after step state calls) ≤
      potential state := by
  induction calls generalizing state with
  | nil => simp [occurrences]
  | cons call rest ih =>
      have hcall := hcalls call List.mem_cons_self
      have hfirst := huses state call hstate hcall
      have hrest := ih (hkeeps state call hstate hcall) fun other hother =>
        hcalls other (List.mem_cons_of_mem _ hother)
      rw [after_cons, occurrences]
      omega

end SerialRun

namespace Potential

universe u

variable {State : Type u}

/-- A move that uses potential up wherever the goal is not reached yet reaches it. -/
theorem exists_iterate_reaches {move : State → State} (invariant goal : State → Prop)
    (potential : State → ℕ) (hkeeps : ∀ state, invariant state → invariant (move state))
    (huses : ∀ state, invariant state → ¬goal state → potential (move state) < potential state)
    {state : State} (hstate : invariant state) :
    ∃ count ≤ potential state, goal (move^[count] state) := by
  induction hbound : potential state using Nat.strongRecOn generalizing state with
  | _ bound ih =>
      by_cases hgoal : goal state
      · exact ⟨0, Nat.zero_le _, hgoal⟩
      · have hless := huses state hstate hgoal
        obtain ⟨count, hcount, hreached⟩ := ih _ (hbound ▸ hless) (hkeeps state hstate) rfl
        exact ⟨count + 1, by omega, hreached⟩

end Potential
