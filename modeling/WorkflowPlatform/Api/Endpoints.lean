import WorkflowPlatform.Foundation.Run
import WorkflowPlatform.Engine.Definition
import WorkflowPlatform.Engine.Process
import WorkflowPlatform.Engine.SlaMonitor

/-! # Endpoints and calls

The endpoints wrap the engine in a transaction that is committed on success. A
call is one of the operations a client or the scheduler can run; performing it
gives the state the next call starts from.
-/

namespace WorkflowPlatform

open Python Tx

namespace Endpoint

/-- `POST /requests`. -/
def startWorkflow (env : Env) (workflowId requesterId : Uuid) (data : Dict) :
    EngineTx WorkflowRequest :=
  transaction (env.dbFails 2) .databaseError
    (WorkflowEngine.startWorkflow env workflowId requesterId data)

/-- `POST /requests/{id}/process`. -/
def processRequestStep (env : Env) (requestId : Uuid) (user : User) (outcome : String)
    (context : Option Dict) : EngineTx WorkflowRequest :=
  transaction (env.dbFails 2) .databaseError
    (WorkflowEngine.processStep env requestId user outcome context)

/-- `payload.get(key)`. -/
def payloadGet (payload : Dict) (key : String) : Json := (payload.lookup key).getD .null

/-- The outcome `make_decision` derives from an action. -/
def outcomeOf (action : Json) : Except EngineError String :=
  if !action.truthy then .error .actionRequired
  else match action with
    | .str text => .ok (upper text)
    | _ => .error .attributeError

/-- The context `make_decision` passes on. -/
def decisionContext (payload : Dict) : Dict :=
  [("comment", payloadGet payload "comment"), ("action", payloadGet payload "action")]

/-- `POST /workflow-instances/{id}/decision`. -/
def makeDecision (env : Env) (requestId : Uuid) (user : User) (payload : Dict) :
    EngineTx WorkflowRequest :=
  match outcomeOf (payloadGet payload "action") with
  | .error error => raise error
  | .ok outcome => processRequestStep env requestId user outcome (some (decisionContext payload))

/-- The status code `make_decision` answers an error with. -/
def decisionStatus (error : EngineError) : ℕ :=
  match error.errorClass with
  | .workflowEngineError | .permissionDeniedError | .httpException => 400
  | _ => 500

/-- The status code the application's exception handlers answer an error with. -/
def handledStatus (error : EngineError) : ℕ :=
  match error.errorClass with
  | .invalidStateTransitionError | .httpException => 400
  | .permissionDeniedError => 403
  | .resourceNotFoundError => 404
  | .workflowEngineError | .other => 500

/-- An entry of the task list. -/
structure TaskView where
  requestId : Uuid
  requestStepId : Uuid
  workflowName : String
  stepName : String
  stepDescription : Option String
  deadline : Option DateTime
  isSlaBreached : Bool
  requestData : Option Dict
  createdAt : DateTime

/-- Whether the task list shows the executions of a step to a user. -/
def showsStep (user : User) (stepDef : WorkflowStep) : Bool :=
  WorkflowEngine.isAdmin user ||
    !(stepDef.requiredRoleId.any (· ∉ WorkflowEngine.roleIds user)) &&
      !(stepDef.requiredPermissionId.any (· ∉ WorkflowEngine.permissionIds user))

/-- The entry for an execution, joined with its step, request and workflow. -/
def taskView? (db : Database) (user : User) (exec : RequestStep) : Option TaskView := do
  let stepDef ← db.step? exec.stepId
  let request ← db.request? exec.requestId
  if showsStep user stepDef then
    let workflow ← db.workflow? request.workflowId
    return {
      requestId := exec.requestId
      requestStepId := exec.id
      workflowName := workflow.name
      stepName := stepDef.name
      stepDescription := stepDef.description
      deadline := exec.deadline
      isSlaBreached := exec.isSlaBreached
      requestData := request.requestData
      createdAt := request.createdAt }
  else none

/-- `GET /requests/my-tasks`. -/
def getMyTasks (order : RowOrder RequestStep) (db : Database) (user : User) : List TaskView :=
  (order.rows (db.requestSteps.filter fun exec =>
    exec.status = .pending ∧ exec.completedAt.isNone)).filterMap (taskView? db user)

end Endpoint

/-! ## Calls -/

/-- One operation, each in a transaction of its own. -/
inductive Call
  | createWorkflow (env : Env) (payload : WorkflowCreate) (creatorId : Uuid)
  | deleteWorkflow (env : Env) (workflowId : Uuid)
  | startWorkflow (env : Env) (workflowId requesterId : Uuid) (data : Dict)
  | processStep (env : Env) (requestId : Uuid) (user : User) (outcome : String)
      (context : Option Dict)
  | makeDecision (env : Env) (requestId : Uuid) (user : User) (payload : Dict)
  | scanForBreaches (env : Env)

namespace Call

def env : Call → Env
  | createWorkflow env _ _ | deleteWorkflow env _ | startWorkflow env _ _ _
  | processStep env _ _ _ _ | makeDecision env _ _ _ | scanForBreaches env => env

/-- The outcome a call decides by. -/
def outcome? : Call → Option String
  | processStep _ _ _ outcome _ => some outcome
  | makeDecision _ _ _ payload =>
      (Endpoint.outcomeOf (Endpoint.payloadGet payload "action")).toOption
  | _ => none

/-- The state a call leaves: what it committed, or the state it met. -/
def perform (db : Database) : Call → Database
  | createWorkflow env payload creatorId =>
      (Tx.perform (WorkflowService.createWorkflow env payload creatorId) db).state
  | deleteWorkflow env workflowId =>
      (Tx.perform (WorkflowService.deleteWorkflow env workflowId) db).state
  | startWorkflow env workflowId requesterId data =>
      (Tx.perform (Endpoint.startWorkflow env workflowId requesterId data) db).state
  | processStep env requestId user outcome context =>
      (Tx.perform (Endpoint.processRequestStep env requestId user outcome context) db).state
  | makeDecision env requestId user payload =>
      (Tx.perform (Endpoint.makeDecision env requestId user payload) db).state
  | scanForBreaches env => (Tx.perform (SLAMonitor.scanForBreaches env) db).state

/-- A call that returns, and so has committed. -/
def accepted (db : Database) : Call → Bool
  | createWorkflow env payload creatorId =>
      (Tx.perform (WorkflowService.createWorkflow env payload creatorId) db).result.isOk
  | deleteWorkflow env workflowId =>
      (Tx.perform (WorkflowService.deleteWorkflow env workflowId) db).result.isOk
  | startWorkflow env workflowId requesterId data =>
      (Tx.perform (Endpoint.startWorkflow env workflowId requesterId data) db).result.isOk
  | processStep env requestId user outcome context =>
      (Tx.perform (Endpoint.processRequestStep env requestId user outcome context) db).result.isOk
  | makeDecision env requestId user payload =>
      (Tx.perform (Endpoint.makeDecision env requestId user payload) db).result.isOk
  | scanForBreaches env => (Tx.perform (SLAMonitor.scanForBreaches env) db).result.isOk

end Call

/-- The state after calls that run one after the other. -/
abbrev runCalls (db : Database) (calls : List Call) : Database :=
  SerialRun.after Call.perform db calls

/-- The states calls can lead to from a database in which nothing was stored. -/
def Reachable (db : Database) : Prop := ∃ calls, db = runCalls Database.empty calls

/-! ## Concrete inputs -/

namespace Sample

def noon : DateTime := ⟨43200000000, by decide⟩

/-- Three days later. -/
def later : DateTime := ⟨302400000000, by decide⟩

def admin : User where
  id := 0
  email := "admin@workflow-platform.com"
  isActive := true
  roles := [⟨0, "Admin", []⟩]

/-- A step of one day that anyone may decide. -/
def review (order : ℤ) (horder : 1 ≤ order) : WorkflowStepCreate where
  name := "Review"
  description := none
  stepOrder := order
  slaHours := 24
  requiredRoleId := none
  requiredPermissionId := none
  isConditional := false
  conditionConfig := none
  name_length := by decide
  one_le_stepOrder := horder
  one_le_slaHours := by decide

def firstReview : WorkflowStepCreate := review 1 (Int.le_refl 1)

/-- The definition with given transitions between two reviews. -/
def twoReviews (transitions : List StepTransitionCreate) : WorkflowCreate where
  name := "Purchase"
  description := none
  isActive := true
  steps := [firstReview, review 2 (by decide)]
  transitions := transitions
  name_length := by decide

/-- Two reviews, each approved on its own. -/
def approvals : WorkflowCreate :=
  twoReviews [⟨1, some 2, "APPROVED", none⟩, ⟨2, none, "APPROVED", none⟩]

/-- A definition stored first, and a request for it. -/
def opening (payload : WorkflowCreate) (data : Dict) : List Call :=
  [.createWorkflow (.calm noon) payload 0, .startWorkflow (.calm noon) 0 0 data]

/-- An approval of the request that `opening approvals` starts. -/
def approval : Call := .processStep (.calm noon) 5 admin "APPROVED" none

/-- A request approved at both reviews. -/
def approvedTwice : List Call := opening approvals [] ++ [approval, approval]

end Sample

end WorkflowPlatform
