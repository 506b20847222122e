import WorkflowPlatform.Engine.Transaction

/-! # Workflow definitions

Payloads that passed validation, and the service that stores and deletes
definitions. A payload carries the bounds its schema checks.
-/

namespace WorkflowPlatform

open Python Tx

/-! ## Payloads -/

structure WorkflowStepCreate where
  name : String
  description : Option String
  stepOrder : ℤ
  slaHours : ℕ
  requiredRoleId : Option Uuid
  requiredPermissionId : Option Uuid
  isConditional : Bool
  conditionConfig : Option Dict
  name_length : 1 ≤ name.length ∧ name.length ≤ 100
  one_le_stepOrder : 1 ≤ stepOrder
  one_le_slaHours : 1 ≤ slaHours

structure StepTransitionCreate where
  fromStepOrder : ℤ
  toStepOrder : Option ℤ
  outcome : String
  conditionConfig : Option Dict

structure WorkflowCreate where
  name : String
  description : Option String
  isActive : Bool
  steps : List WorkflowStepCreate
  transitions : List StepTransitionCreate
  name_length : 1 ≤ name.length ∧ name.length ≤ 255

namespace WorkflowService

/-! ## Creating -/

/-- The row of a new workflow. It is active whatever the payload says. -/
def workflowRow (payload : WorkflowCreate) (creatorId : Uuid) (id : Uuid) : Workflow where
  id := id
  name := payload.name
  description := payload.description
  isActive := true
  createdBy := some creatorId

def stepRow (workflowId : Uuid) (stepData : WorkflowStepCreate) (id : Uuid) : WorkflowStep where
  id := id
  workflowId := workflowId
  stepOrder := stepData.stepOrder
  name := stepData.name
  description := stepData.description
  requiredRoleId := stepData.requiredRoleId
  requiredPermissionId := stepData.requiredPermissionId
  slaHours := stepData.slaHours
  isConditional := stepData.isConditional
  conditionConfig := stepData.conditionConfig

/-- Steps by their order. A later entry hides an earlier one, so it stands in front. -/
abbrev StepsMap := List (ℤ × Uuid)

/-- Store the steps, one flush each, and remember which step has which order. -/
def createSteps (env : Env) (workflowId : Uuid) :
    ℕ → StepsMap → List WorkflowStepCreate → EngineTx StepsMap
  | _, stepsMap, [] => pure stepsMap
  | trip, stepsMap, stepData :: rest => do
      let stepId ← query (·.nextId)
      add (.insertWorkflowStep (stepRow workflowId stepData))
      flush (env.dbFails trip) .databaseError
      createSteps env workflowId (trip + 1) ((stepData.stepOrder, stepId) :: stepsMap) rest

/-- The row of a transition, unless no step has the order it leaves from. A target
order that no step has gives no target. -/
def transitionRow? (stepsMap : StepsMap) (transData : StepTransitionCreate) :
    Option (Uuid → StepTransition) :=
  (stepsMap.lookup transData.fromStepOrder).map fun fromStepId id =>
    { id := id
      fromStepId := fromStepId
      toStepId := transData.toStepOrder.bind (stepsMap.lookup ·)
      conditionConfig := transData.conditionConfig
      outcome := transData.outcome }

/-- Add the transitions, passing over those without a step to leave from. -/
def createTransitions (stepsMap : StepsMap) : List StepTransitionCreate → EngineTx Unit
  | [] => pure ()
  | transData :: rest => do
      match transitionRow? stepsMap transData with
      | none => pure ()
      | some row => add (.insertStepTransition row)
      createTransitions stepsMap rest

/-- `create_workflow`, which commits by itself. -/
def createWorkflow (env : Env) (payload : WorkflowCreate) (creatorId : Uuid) : EngineTx Uuid := do
  let workflowId ← query (·.nextId)
  add (.insertWorkflow (workflowRow payload creatorId))
  flush (env.dbFails 0) .databaseError
  let stepsMap ← createSteps env workflowId 1 [] payload.steps
  createTransitions stepsMap payload.transitions
  commit (env.dbFails (payload.steps.length + 1)) .databaseError
  return workflowId

/-! ## Deleting -/

def getWorkflow (workflowId : Uuid) : EngineTx Workflow := do
  let workflow ← query (·.workflow? workflowId)
  orRaise workflow (.resourceNotFound workflowId)

/-- `delete_workflow`, which commits by itself. -/
def deleteWorkflow (env : Env) (workflowId : Uuid) : EngineTx Unit := do
  let workflow ← getWorkflow workflowId
  add (.deleteWorkflow workflow.id)
  commit (env.dbFails 0) .databaseError

end WorkflowService

end WorkflowPlatform
