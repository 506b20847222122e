import WorkflowPlatform.Engine.Condition
import WorkflowPlatform.Engine.Transaction

/-! # The workflow engine

Starting a request and deciding its current step. A decision is taken in three
parts, so that its reads can be separated from its writes: the request is read,
then its open execution, then the execution is closed and the request routed.
-/

namespace WorkflowPlatform

open Python Tx

namespace WorkflowEngine

/-! ## Routing -/

/-- A transition whose guard is empty or holds. -/
def enabled (context : Dict) (trans : StepTransition) : Bool :=
  match trans.conditionConfig with
  | none | some [] => true
  | some config => ConditionEvaluator.evaluate (some config) context

/-- The transitions of a step and an outcome. There are none without a step. -/
def matchingTransitions (db : Database) (fromStepId : Option Uuid) (outcome : String) :
    List StepTransition :=
  match fromStepId with
  | some stepId => db.transitionsFrom stepId outcome
  | none => []

/-- `_resolve_next`: the target of the first enabled transition. No transition, no
enabled transition and an enabled transition without a target all give `none`. -/
def resolveNext (order : RowOrder StepTransition) (db : Database) (fromStepId : Option Uuid)
    (outcome : String) (context : Dict) : Option WorkflowStep :=
  (order.pick (enabled context) (matchingTransitions db fromStepId outcome)).bind
    fun trans => trans.toStepId.bind db.step?

/-- The first step of a workflow: a step with order 1, as the rows come. -/
def firstStep (order : RowOrder WorkflowStep) (db : Database) (workflowId : Uuid) :
    Option WorkflowStep :=
  order.pick (fun step => step.workflowId = workflowId ∧ step.stepOrder = 1) db.workflowSteps

/-- The open execution of a request at its current step, as the rows come. A
request without a current step has none. -/
def openExecution (order : RowOrder RequestStep) (db : Database) (requestId : Uuid)
    (currentStepId : Option Uuid) : Option RequestStep :=
  order.pick (fun exec => exec.requestId = requestId ∧ some exec.stepId = currentStepId ∧
    exec.completedAt.isNone) db.requestSteps

/-! ## Access control -/

def isAdmin (user : User) : Bool := user.roles.any fun role => lower role.name = "admin"

def roleIds (user : User) : List Uuid := user.roles.map (·.id)

def permissionIds (user : User) : List Uuid :=
  user.roles.flatMap fun role => role.permissions.map (·.id)

/-- What a step requires of a user who is no administrator, if he lacks it. -/
def missing (user : User) (stepDef : WorkflowStep) : Option EngineError :=
  if stepDef.requiredRoleId.any (· ∉ roleIds user) then some .lacksRole
  else if stepDef.requiredPermissionId.any (· ∉ permissionIds user) then some .lacksPermission
  else none

/-- The access check of `process_step`. Administrators pass without a look at the step. -/
def enforceRbac (user : User) (currentExec : RequestStep) : EngineTx Unit :=
  if isAdmin user then pure ()
  else do
    let stepDef ← query (·.step? currentExec.stepId)
    let stepDef ← orRaise stepDef .attributeError
    match missing user stepDef with
    | some error => raise error
    | none => pure ()

/-! ## Starting -/

/-- Tell the assignees of a step about it. -/
def notifyNewAssignment (env : Env) (workflowName : String) (step : WorkflowStep)
    (requestId : Uuid) (deadline : DateTime) : EngineTx Unit :=
  enqueue (env.brokerFails 0) .brokerError
    (.notifyNewAssignment step.id requestId workflowName step.name deadline)

def historyRow (env : Env) (requestId : Uuid) (fromStatus toStatus : RequestStatus)
    (changedBy : Uuid) (reason : String) (id : Uuid) : RequestStateHistory where
  id := id
  requestId := requestId
  fromStatus := some fromStatus
  toStatus := toStatus
  changedBy := some changedBy
  changedAt := env.began
  reason := reason

/-- A new execution of a step. -/
def executionRow (requestId stepId : Uuid) (now deadline : DateTime) (id : Uuid) : RequestStep where
  id := id
  requestId := requestId
  stepId := stepId
  status := .pending
  assignedTo := none
  startedAt := some now
  completedAt := none
  deadline := some deadline
  isSlaBreached := false
  comments := none
  decisionData := none

def requestRow (env : Env) (workflowId requesterId : Uuid) (data : Dict) (id : Uuid) :
    WorkflowRequest where
  id := id
  workflowId := workflowId
  requesterId := some requesterId
  currentStepId := none
  status := .created
  requestData := some data
  createdAt := env.began
  completedAt := none

/-- An entry about a request as a whole. -/
def requestAudit (env : Env) (action : AuditAction) (actorId requestId : Uuid)
    (metaData : List (String × MetaValue)) (id : Uuid) : AuditLog where
  id := id
  requestId := some requestId
  actorId := some actorId
  action := action
  resourceType := .workflowRequest
  resourceId := requestId
  timestamp := env.began
  metaData := metaData

/-- `start_workflow`. -/
def startWorkflow (env : Env) (workflowId requesterId : Uuid) (data : Dict) :
    EngineTx WorkflowRequest := do
  let workflow ← query fun db => db.workflows.find? fun row => row.id = workflowId ∧ row.isActive
  let workflow ← orRaise workflow (.workflowNotFound workflowId)
  -- the identifier the flush draws for the request
  let requestId ← query (·.nextId)
  add (.insertWorkflowRequest (requestRow env workflowId requesterId data))
  flush (env.dbFails 0) .databaseError
  validateTransition .created .inProgress
  add (.updateWorkflowRequest requestId ⟨some .inProgress, none, none⟩)
  add (.insertRequestStateHistory
    (historyRow env requestId .created .inProgress requesterId "Workflow initiation"))
  let first ← query fun db => firstStep env.stepOrder db workflowId
  let first ← orRaise first .noFirstStep
  let now := env.utcnow 0
  let deadline ← orRaise (now.addHours first.slaHours) .overflowError
  add (.insertRequestStep (executionRow requestId first.id now deadline))
  add (.updateWorkflowRequest requestId ⟨none, some (some first.id), none⟩)
  logAction env 1 (requestAudit env .workflowStarted requesterId requestId
    [("workflow_id", .uuid workflowId)])
  notifyNewAssignment env workflow.name first requestId deadline
  return { requestRow env workflowId requesterId data requestId with
    status := .inProgress, currentStepId := some first.id }

/-! ## Deciding -/

/-- The update that completes a request. -/
def completion (now : DateTime) : RequestUpdate := ⟨some .completed, some none, some now⟩

/-- The status a decision without a next step gives the request on its way to completion. -/
def verdictOf (outcome : String) : RequestStatus :=
  if outcome = "APPROVED" then .approved else .rejected

/-- `_finalize`. -/
def finalize (env : Env) (request : WorkflowRequest) (outcome : String) (actorId : Uuid) :
    EngineTx WorkflowRequest := do
  let oldStatus := request.status
  let targetStatus := verdictOf outcome
  validateTransition oldStatus targetStatus
  add (.insertRequestStateHistory
    (historyRow env request.id oldStatus targetStatus actorId s!"Final step outcome: {outcome}"))
  validateTransition targetStatus .completed
  add (.updateWorkflowRequest request.id (completion (env.utcnow 1)))
  add (.insertRequestStateHistory
    (historyRow env request.id targetStatus .completed actorId "Workflow completion"))
  logAction env 0 (requestAudit env .workflowCompleted actorId request.id
    [("final_outcome", .text outcome)])
  return { request with
    status := .completed, currentStepId := none, completedAt := some (env.utcnow 1) }

/-- Open the next step. A broker out of reach does not stop the request. -/
def moveTo (env : Env) (request : WorkflowRequest) (nextStep : WorkflowStep) :
    EngineTx WorkflowRequest := do
  let now := env.utcnow 1
  let deadline ← orRaise (now.addHours nextStep.slaHours) .overflowError
  add (.insertRequestStep (executionRow request.id nextStep.id now deadline))
  add (.updateWorkflowRequest request.id
    ⟨none, changed request.currentStepId (some nextStep.id), none⟩)
  let _ ← attempt do
    let workflow ← query (·.workflow? request.workflowId)
    let workflow ← orRaise workflow .attributeError
    notifyNewAssignment env workflow.name nextStep request.id deadline
  return { request with currentStepId := some nextStep.id }

/-- What closing the current execution writes. -/
def decisionOf (env : Env) (currentExec : RequestStep) (user : User) (outcome : String)
    (context : Option Dict) : Decision where
  assignedTo := user.id
  status := changed currentExec.status.value outcome
  decisionData := context
  comments := ((context.getD []).lookup "comment").bind columnOf
  completedAt := env.utcnow 0
  castsArray := env.castsArray

/-- The entry about a decided execution. -/
def stepAudit (env : Env) (user : User) (exec : RequestStep) (requestId : Uuid) (outcome : String)
    (id : Uuid) : AuditLog where
  id := id
  requestId := some requestId
  actorId := some user.id
  action := .stepCompleted
  resourceType := .requestStep
  resourceId := exec.id
  timestamp := env.began
  metaData := [("outcome", .text outcome), ("step_id", .uuid exec.stepId)]

/-- The part of `process_step` after its two reads: check access, close the
execution, open the next step or complete the request. -/
def closeAndRoute (env : Env) (request : WorkflowRequest) (currentExec : RequestStep) (user : User)
    (outcome : String) (context : Option Dict) : EngineTx WorkflowRequest := do
  enforceRbac user currentExec
  add (.closeRequestStep currentExec.id (decisionOf env currentExec user outcome context))
  let nextStep ← query fun db => resolveNext env.transitionOrder db request.currentStepId outcome
    (evalContext request.requestData context)
  let request ← match nextStep with
    | some nextStep => moveTo env request nextStep
    | none => finalize env request outcome user.id
  logAction env 1 (stepAudit env user currentExec request.id outcome)
  return request

def readRequest (requestId : Uuid) : EngineTx WorkflowRequest := do
  let request ← query (·.request? requestId)
  orRaise request (.requestNotFound requestId)

def readOpenExecution (env : Env) (requestId : Uuid) (request : WorkflowRequest) :
    EngineTx RequestStep := do
  let currentExec ← query fun db =>
    openExecution env.executionOrder db requestId request.currentStepId
  orRaise currentExec .noPendingExecution

/-- `process_step`. -/
def processStep (env : Env) (requestId : Uuid) (user : User) (outcome : String)
    (context : Option Dict) : EngineTx WorkflowRequest := do
  let request ← readRequest requestId
  let currentExec ← readOpenExecution env requestId request
  closeAndRoute env request currentExec user outcome context

end WorkflowEngine

end WorkflowPlatform
