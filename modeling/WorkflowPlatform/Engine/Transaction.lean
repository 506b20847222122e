import WorkflowPlatform.Foundation.RowOrder
import WorkflowPlatform.Store.Write

/-! # Transactions of the platform

The errors a call can raise, the tasks it can enqueue, and what its surroundings
decide: the clock, the order of unordered rows, and which database round trips
and which hand-overs to the broker fail.
-/

namespace WorkflowPlatform

open Python

/-! ## Errors -/

inductive EngineError
  | workflowNotFound (workflowId : Uuid)
  | noFirstStep
  | requestNotFound (requestId : Uuid)
  | noPendingExecution
  | lacksRole
  | lacksPermission
  | invalidStateTransition (fromState toState : RequestStatus)
  | resourceNotFound (workflowId : Uuid)
  | actionRequired
  | attributeError
  | overflowError
  | databaseError
  | brokerError
  deriving DecidableEq, Repr

/-- The exception class an error is raised as. -/
inductive ErrorClass
  | workflowEngineError
  | permissionDeniedError
  | invalidStateTransitionError
  | resourceNotFoundError
  | httpException
  | other
  deriving DecidableEq, Repr

namespace EngineError

def errorClass : EngineError → ErrorClass
  | workflowNotFound _ | noFirstStep | requestNotFound _ | noPendingExecution =>
      .workflowEngineError
  | lacksRole | lacksPermission => .permissionDeniedError
  | invalidStateTransition _ _ => .invalidStateTransitionError
  | resourceNotFound _ => .resourceNotFoundError
  | actionRequired => .httpException
  | attributeError | overflowError | databaseError | brokerError => .other

/-- The text of an error raised by the platform itself. -/
def message : EngineError → String
  | workflowNotFound workflowId => s!"Workflow definition {workflowId} not found or inactive"
  | noFirstStep => "Workflow started but no first step (order=1) is defined"
  | requestNotFound requestId => s!"Request {requestId} not found"
  | noPendingExecution => "Logical Conflict: Request is active but has no pending execution step"
  | lacksRole => "User lacks required role for this workflow step"
  | lacksPermission => "User lacks required permission for this workflow step"
  | invalidStateTransition fromState toState =>
      let allowed := (stateTransitions fromState).map fun state => "'" ++ state.value ++ "'"
      "Invalid transition from '" ++ fromState.value ++ "' to '" ++ toState.value ++
        "'. Allowed states: [" ++ String.intercalate ", " allowed ++ "]"
  | resourceNotFound workflowId => s!"Workflow {workflowId} not found"
  | actionRequired => "Action is required (approve/reject/execute)"
  | attributeError | overflowError | databaseError | brokerError => ""

end EngineError

/-! ## Tasks -/

/-- Tasks handed to the broker. -/
inductive Task
  | notifyNewAssignment (stepId requestId : Uuid) (workflowName stepName : String)
      (deadline : DateTime)
  | sendSlaBreachEmail (emails : List String) (workflowName stepName : String) (requestId : Uuid)
      (deadline : DateTime)
  deriving DecidableEq

/-! ## Surroundings of a call -/

/-- What a call meets: `now()` of its transaction, its readings of the clock, the
round trips to the database and the hand-overs to the broker that fail, counted
from the start of the call, the order of unordered rows, and the arrays that the
database can make a text of. -/
structure Env where
  began : DateTime
  utcnow : ℕ → DateTime
  dbFails : ℕ → Bool
  brokerFails : ℕ → Bool
  stepOrder : RowOrder WorkflowStep
  transitionOrder : RowOrder StepTransition
  executionOrder : RowOrder RequestStep
  castsArray : List Json → Bool

/-- The columns take the context of a decision as its data, and the comment in it. -/
def storable (castsArray : List Json → Bool) (context : Option Dict) : Bool :=
  Json.encodesFields (context.getD []) &&
    (((context.getD []).lookup "comment").bind columnOf).all (Json.fitsText castsArray)

namespace Env

def stores (env : Env) (context : Option Dict) : Bool := storable env.castsArray context

/-- A call at a time at which nothing fails, rows come as they are stored, and arrays
are no texts. -/
def calm (now : DateTime) : Env where
  began := now
  utcnow _ := now
  dbFails _ := false
  brokerFails _ := false
  stepOrder := .stored
  transitionOrder := .stored
  executionOrder := .stored
  castsArray _ := false

/-- The same surroundings over a database that can make texts of other arrays. -/
def casting (env : Env) (casts : List Json → Bool) : Env := { env with castsArray := casts }

end Env

/-- A program of the platform over a database session. -/
abbrev EngineTx (Value : Type) := Tx Database Write Task EngineError Value

open Tx

/-- `validate_transition`. -/
def validateTransition (fromState toState : RequestStatus) : EngineTx Unit :=
  if isValidTransition fromState toState then pure ()
  else raise (.invalidStateTransition fromState toState)

/-- `AuditService.log_action`: add the entry and flush; a refused flush rolls the
whole session back. `trip` is the number of the round trip. -/
def logAction (env : Env) (trip : ℕ) (entry : Uuid → AuditLog) : EngineTx Unit := do
  add (.insertAuditLog entry)
  onError (flush (env.dbFails trip) .databaseError) rollback

theorem validateTransition_of_valid {fromState toState : RequestStatus}
    (hvalid : isValidTransition fromState toState = true) :
    validateTransition fromState toState = pure () := by
  rw [validateTransition, if_pos hvalid]

theorem uncommitted_validateTransition (fromState toState : RequestStatus) :
    Uncommitted (validateTransition fromState toState) := by
  unfold validateTransition
  split
  · exact Uncommitted.pure _
  · exact Uncommitted.raise _

theorem uncommitted_logAction (env : Env) (trip : ℕ) (entry : Uuid → AuditLog) :
    Uncommitted (logAction env trip entry) :=
  (Uncommitted.add _).bind fun _ => (Uncommitted.flush _ _).onError Uncommitted.rollback

/-- An audit entry takes every pending write to the database with it; a refusal
rolls the session back. -/
theorem run_logAction (env : Env) (trip : ℕ) (entry : Uuid → AuditLog)
    (session : Session Database Write Task) :
    (logAction env trip entry).run session =
      match if env.dbFails trip then none
        else Store.applyAll (session.pending ++ [.insertAuditLog entry]) session.flushed with
      | some flushed =>
          (.ok (), { session with
            flushed := flushed
            written := session.written ++ (session.pending ++ [.insertAuditLog entry])
            pending := [] })
      | none => (.error .databaseError, session.rolledBack) := by
  simp only [logAction, run_add_bind, onError, flush]
  cases (if env.dbFails trip = true then none
    else Store.applyAll (session.pending ++ [.insertAuditLog entry]) session.flushed) with
  | some flushed => rfl
  | none => rfl

end WorkflowPlatform
