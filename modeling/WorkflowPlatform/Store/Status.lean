import Mathlib.Data.List.Basic

/-! # Statuses and the request state machine -/

namespace WorkflowPlatform

/-- Status of a workflow request. -/
inductive RequestStatus
  | created
  | inProgress
  | approved
  | rejected
  | completed
  | escalated
  deriving DecidableEq, Repr

/-- Status of the execution of one step. -/
inductive StepStatus
  | pending
  | inProgress
  | approved
  | rejected
  | skipped
  deriving DecidableEq, Repr

namespace RequestStatus

def value : RequestStatus → String
  | .created => "CREATED"
  | .inProgress => "IN_PROGRESS"
  | .approved => "APPROVED"
  | .rejected => "REJECTED"
  | .completed => "COMPLETED"
  | .escalated => "ESCALATED"

theorem value_injective : Function.Injective value := by
  intro first second heq
  cases first <;> cases second <;> first | rfl | exact absurd heq (by decide)

end RequestStatus

namespace StepStatus

def all : List StepStatus := [.pending, .inProgress, .approved, .rejected, .skipped]

def value : StepStatus → String
  | .pending => "PENDING"
  | .inProgress => "IN_PROGRESS"
  | .approved => "APPROVED"
  | .rejected => "REJECTED"
  | .skipped => "SKIPPED"

/-- The member a string names, if it names one: what the enum column accepts. -/
def ofValue? (text : String) : Option StepStatus := all.find? fun status => status.value = text

theorem value_injective : Function.Injective value := by
  intro first second heq
  cases first <;> cases second <;> first | rfl | exact absurd heq (by decide)

@[simp] theorem ofValue?_value (status : StepStatus) : ofValue? status.value = some status := by
  cases status <;> rfl

theorem ofValue?_eq_some_iff {text : String} {status : StepStatus} :
    ofValue? text = some status ↔ status.value = text := by
  constructor
  · intro hfound
    simpa using List.find?_some hfound
  · rintro rfl
    exact ofValue?_value status

end StepStatus

/-! ## The state machine -/

/-- `STATE_TRANSITIONS`: the statuses that may follow each status. -/
def stateTransitions : RequestStatus → List RequestStatus
  | .created => [.inProgress]
  | .inProgress => [.approved, .rejected, .escalated]
  | .approved => [.completed]
  | .rejected => [.completed]
  | .escalated => [.inProgress]
  | .completed => []

/-- Staying in a status is allowed; the rest is listed. -/
def isValidTransition (fromState toState : RequestStatus) : Bool :=
  fromState.value = toState.value ||
    (stateTransitions fromState).any fun state => toState.value = state.value

def isTerminalState (state : RequestStatus) : Bool := (stateTransitions state).length = 0

theorem isValidTransition_iff (fromState toState : RequestStatus) :
    isValidTransition fromState toState = true ↔
      fromState = toState ∨ toState ∈ stateTransitions fromState := by
  simp [isValidTransition, RequestStatus.value_injective.eq_iff]

/-- A terminal status is only followed by itself. -/
theorem eq_of_isTerminalState {fromState toState : RequestStatus}
    (hterminal : isTerminalState fromState = true)
    (hvalid : isValidTransition fromState toState = true) : toState = fromState := by
  have hnone : stateTransitions fromState = [] := by
    simpa [isTerminalState] using hterminal
  rw [isValidTransition_iff, hnone] at hvalid
  simpa [eq_comm] using hvalid

end WorkflowPlatform
