import WorkflowPlatform.Foundation.Run

/-! # Following a part of a state

A part of the state that every call either leaves alone or changes by a reaction of
its own can be followed through a run without the rest of the state: it ends where
its reactions alone lead, whatever the other calls do and whenever they come.
-/

namespace SerialRun

universe uState uCall uPart uInput

variable {State : Type uState} {Call : Type uCall} {Part : Type uPart} {Input : Type uInput}

/-- The inputs that the calls of a run give to a part. -/
def inputs (input? : Call → Option Input) (calls : List Call) : List Input :=
  calls.filterMap input?

variable {step : State → Call → State}

/-- A part that reacts to its own inputs, step by step, does so over a whole run. -/
theorem observe_after (observe : State → Part) (input? : Call → Option Input)
    (react : Part → Input → Part) (invariant : State → Prop)
    (hkeeps : ∀ state call, invariant state → invariant (step state call))
    (hreacts : ∀ state call, invariant state → observe (step state call) =
      ((input? call).map (react (observe state))).getD (observe state))
    {state : State} (hstate : invariant state) (calls : List Call) :
    observe (after step state calls) = after react (observe state) (inputs input? calls) := by
  induction calls generalizing state with
  | nil => rfl
  | cons call rest ih =>
      rw [after_cons, ih (hkeeps state call hstate), hreacts state call hstate]
      cases hinput : input? call with
      | none => simp [inputs, hinput]
      | some input => simp [inputs, hinput]

/-- A part that is there stays there. -/
theorem after_some (react : Part → Input → Part) (part : Part) (inputs : List Input) :
    after (fun part input => part.map (react · input)) (some part) inputs =
      some (after react part inputs) := by
  induction inputs generalizing part with
  | nil => rfl
  | cons input rest ih => exact ih (react part input)

/-! ## Flags -/

variable (flag : State → Prop) {invariant : State → Prop}

/-- A flag that is up after a run was up before, or some call of the run raised it. -/
theorem exists_raises (raises : State → Call → Prop)
    (hkeeps : ∀ state call, invariant state → invariant (step state call))
    (hflag : ∀ state call, invariant state → flag (step state call) →
      flag state ∨ raises state call)
    {state : State} (hstate : invariant state) {calls : List Call}
    (hafter : flag (after step state calls)) :
    flag state ∨ ∃ before call rest, calls = before ++ call :: rest ∧
      raises (after step state before) call := by
  induction calls generalizing state with
  | nil => exact .inl hafter
  | cons head tail ih =>
      rcases ih (hkeeps state head hstate) hafter with hnext | ⟨before, call, rest, rfl, hlater⟩
      · rcases hflag state head hstate hnext with hbefore | hraises
        · exact .inl hbefore
        · exact .inr ⟨[], head, tail, rfl, hraises⟩
      · exact .inr ⟨head :: before, call, rest, rfl, hlater⟩

/-- A flag that nothing takes back stays up once a call of the run raised it. -/
theorem flag_of_raises (hkeeps : ∀ state call, invariant state → invariant (step state call))
    (hstays : ∀ state call, invariant state → flag state → flag (step state call))
    {state : State} (hstate : invariant state) {before : List Call} {call : Call}
    (hraised : flag (step (after step state before) call)) (rest : List Call) :
    flag (after step state (before ++ call :: rest)) := by
  rw [after_append, after_cons]
  have hnow := SerialRun.invariant invariant hkeeps (before ++ [call]) hstate
  rw [after_concat] at hnow
  refine (SerialRun.invariant (fun state => invariant state ∧ flag state) ?_ rest
    ⟨hnow, hraised⟩).2
  intro state call hboth
  exact ⟨hkeeps state call hboth.1, hstays state call hboth.1 hboth.2⟩

end SerialRun
