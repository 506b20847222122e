import WorkflowPlatform.Foundation.Attributes
import WorkflowPlatform.Api.Endpoints

/-! # The view of a request

A response is built by reading the attributes of the stored objects under the names of the
fields of a schema.
-/

namespace WorkflowPlatform

open Python Attributes

/-! ## The stored objects -/

/-- The value of an attribute. The schemas read none of the others. -/
inductive OrmValue
  | null
  | uuid (value : Uuid)
  | dict (value : Dict)
  | time (value : DateTime)
  | requestStatus (value : RequestStatus)
  | stepStatus (value : StepStatus)
  | requestSteps (rows : List RequestStep)
  | other

namespace OrmValue

def ofOption {Value : Type} (wrap : Value → OrmValue) : Option Value → OrmValue
  | some value => wrap value
  | none => .null

/-! ### Conversions -/

def uuid? : OrmValue → Option Uuid
  | uuid value => some value
  | _ => none

def dict? : OrmValue → Option Dict
  | dict value => some value
  | _ => none

def time? : OrmValue → Option DateTime
  | time value => some value
  | _ => none

def requestStatus? : OrmValue → Option RequestStatus
  | requestStatus value => some value
  | _ => none

/-- A member of a string enumeration is a string. -/
def text? : OrmValue → Option String
  | requestStatus value => some value.value
  | stepStatus value => some value.value
  | _ => none

def requestSteps? : OrmValue → Option (List RequestStep)
  | requestSteps rows => some rows
  | _ => none

/-- `Optional`: null is accepted. -/
def optional {Value : Type} (convert : OrmValue → Option Value) :
    OrmValue → Option (Option Value)
  | null => some none
  | value => (convert value).map some

theorem optional_uuid (value : Option Uuid) :
    optional uuid? (ofOption uuid value) = some value := by
  cases value <;> rfl

theorem optional_dict (value : Option Dict) :
    optional dict? (ofOption dict value) = some value := by
  cases value <;> rfl

theorem optional_time (value : Option DateTime) :
    optional time? (ofOption time value) = some value := by
  cases value <;> rfl

end OrmValue

/-- The columns and relationships of a `WorkflowRequest`. The database keeps `updated_at`
up to date by itself. -/
def WorkflowRequest.attributes (updatedAt : Uuid → DateTime) (db : Database)
    (request : WorkflowRequest) : String → Option OrmValue
  | "id" => some (.uuid request.id)
  | "workflow_id" => some (.uuid request.workflowId)
  | "requester_id" => some (.ofOption .uuid request.requesterId)
  | "current_step_id" => some (.ofOption .uuid request.currentStepId)
  | "status" => some (.requestStatus request.status)
  | "request_data" => some (.ofOption .dict request.requestData)
  | "created_at" => some (.time request.createdAt)
  | "updated_at" => some (.time (updatedAt request.id))
  | "completed_at" => some (.ofOption .time request.completedAt)
  | "request_steps" => some (.requestSteps (db.executions request.id))
  | "workflow" | "requester" | "current_step" | "state_history" => some .other
  | _ => none

/-- The columns and relationships of a `RequestStep`. -/
def RequestStep.attributes (exec : RequestStep) : String → Option OrmValue
  | "id" => some (.uuid exec.id)
  | "request_id" => some (.uuid exec.requestId)
  | "step_id" => some (.uuid exec.stepId)
  | "status" => some (.stepStatus exec.status)
  | "assigned_to" => some (.ofOption .uuid exec.assignedTo)
  | "started_at" => some (.ofOption .time exec.startedAt)
  | "completed_at" => some (.ofOption .time exec.completedAt)
  | "deadline" => some (.ofOption .time exec.deadline)
  | "decision_data" => some (.ofOption .dict exec.decisionData)
  | "is_sla_breached" | "comments" | "request" | "step" | "assignee" | "escalations" => some .other
  | _ => none

/-! ## The schemas -/

structure RequestStepSchema where
  id : Uuid
  requestId : Uuid
  stepId : Uuid
  status : String
  actorId : Option Uuid
  outcome : Option String
  data : Option Dict
  deadline : Option DateTime
  startedAt : Option DateTime
  completedAt : Option DateTime
  stepName : Option String
  stepOrder : Option ℤ

namespace RequestStepSchema

/-- The validation of the base class. -/
def ofAttributes (object : String → Option OrmValue) : Except FieldError RequestStepSchema := do
  return {
    id := ← required object "id" OrmValue.uuid?
    requestId := ← required object "request_id" OrmValue.uuid?
    stepId := ← required object "step_id" OrmValue.uuid?
    status := ← required object "status" OrmValue.text?
    actorId := ← defaulted object "actor_id" none (OrmValue.optional OrmValue.uuid?)
    outcome := ← defaulted object "outcome" none (OrmValue.optional OrmValue.text?)
    data := ← defaulted object "data" none (OrmValue.optional OrmValue.dict?)
    deadline := ← defaulted object "deadline" none (OrmValue.optional OrmValue.time?)
    startedAt := ← defaulted object "started_at" none (OrmValue.optional OrmValue.time?)
    completedAt := ← defaulted object "completed_at" none (OrmValue.optional OrmValue.time?)
    stepName := ← defaulted object "step_name" none (OrmValue.optional OrmValue.text?)
    stepOrder := ← defaulted object "step_order" none (OrmValue.optional fun _ => none) }

/-- What the base class reads of an execution: nothing of who decided it, how, and at which step. -/
theorem ofAttributes_eq (exec : RequestStep) :
    ofAttributes exec.attributes = .ok {
      id := exec.id
      requestId := exec.requestId
      stepId := exec.stepId
      status := exec.status.value
      actorId := none
      outcome := none
      data := none
      deadline := exec.deadline
      startedAt := exec.startedAt
      completedAt := exec.completedAt
      stepName := none
      stepOrder := none } := by
  have hdeadline : defaulted exec.attributes "deadline" none (OrmValue.optional OrmValue.time?) =
      .ok exec.deadline := defaulted_eq_ok rfl (OrmValue.optional_time _)
  have hstarted : defaulted exec.attributes "started_at" none (OrmValue.optional OrmValue.time?) =
      .ok exec.startedAt := defaulted_eq_ok rfl (OrmValue.optional_time _)
  have hcompleted : defaulted exec.attributes "completed_at" none
      (OrmValue.optional OrmValue.time?) = .ok exec.completedAt :=
    defaulted_eq_ok rfl (OrmValue.optional_time _)
  rw [ofAttributes, hdeadline, hstarted, hcompleted]
  rfl

/-- The overridden `model_validate`. No response is built with it. -/
def modelValidate (db : Database) (exec : RequestStep) : Except FieldError RequestStepSchema := do
  let data ← ofAttributes exec.attributes
  match db.step? exec.stepId with
  | some step => return { data with stepName := some step.name, stepOrder := some step.stepOrder }
  | none => return data

end RequestStepSchema

structure WorkflowRequestSchema where
  workflowId : Uuid
  requestData : Option Dict
  id : Uuid
  requesterId : Uuid
  status : RequestStatus
  currentStepId : Option Uuid
  createdAt : DateTime
  updatedAt : DateTime
  steps : List RequestStepSchema

/-- A list of nested objects, each validated as its base class does. -/
def nestedSteps (value : OrmValue) : Option (List RequestStepSchema) := do
  let rows ← value.requestSteps?
  rows.mapM fun exec => (RequestStepSchema.ofAttributes exec.attributes).toOption

def WorkflowRequestSchema.ofAttributes (object : String → Option OrmValue) :
    Except FieldError WorkflowRequestSchema := do
  return {
    workflowId := ← required object "workflow_id" OrmValue.uuid?
    requestData := ← defaulted object "request_data" none (OrmValue.optional OrmValue.dict?)
    id := ← required object "id" OrmValue.uuid?
    requesterId := ← required object "requester_id" OrmValue.uuid?
    status := ← required object "status" OrmValue.requestStatus?
    currentStepId := ← defaulted object "current_step_id" none (OrmValue.optional OrmValue.uuid?)
    createdAt := ← required object "created_at" OrmValue.time?
    updatedAt := ← required object "updated_at" OrmValue.time?
    steps := ← defaulted object "steps" [] nestedSteps }

/-- A response lists no steps: no attribute of a request is called `steps`. -/
theorem WorkflowRequestSchema.ofAttributes_eq (updatedAt : Uuid → DateTime) (db : Database)
    (request : WorkflowRequest) :
    ofAttributes (request.attributes updatedAt db) =
      match request.requesterId with
      | none => .error (.invalid "requester_id")
      | some requesterId => .ok {
          workflowId := request.workflowId
          requestData := request.requestData
          id := request.id
          requesterId := requesterId
          status := request.status
          currentStepId := request.currentStepId
          createdAt := request.createdAt
          updatedAt := updatedAt request.id
          steps := [] } := by
  have hdata : defaulted (request.attributes updatedAt db) "request_data" none
      (OrmValue.optional OrmValue.dict?) = .ok request.requestData :=
    defaulted_eq_ok rfl (OrmValue.optional_dict _)
  have hcurrent : defaulted (request.attributes updatedAt db) "current_step_id" none
      (OrmValue.optional OrmValue.uuid?) = .ok request.currentStepId :=
    defaulted_eq_ok rfl (OrmValue.optional_uuid _)
  have hsteps : defaulted (request.attributes updatedAt db) "steps" [] nestedSteps = .ok [] :=
    defaulted_of_absent rfl
  have hrequester : required (request.attributes updatedAt db) "requester_id" OrmValue.uuid? =
      converted "requester_id" OrmValue.uuid? (.ofOption .uuid request.requesterId) := rfl
  rw [ofAttributes, hdata, hcurrent, hsteps, hrequester]
  cases request.requesterId <;> rfl

/-! ## The endpoint -/

namespace RequestView

inductive ReadError
  | requestNotFound
  | invalidResponse (error : FieldError)
  deriving DecidableEq, Repr

def ReadError.statusCode : ReadError → ℕ
  | requestNotFound => 404
  | invalidResponse _ => 500

def ReadError.detail : ReadError → String
  | requestNotFound => "Request not found"
  | invalidResponse _ => "An unexpected error occurred."

/-- `GET /requests/{id}`. -/
def readRequest (updatedAt : Uuid → DateTime) (db : Database) (id : Uuid) :
    Except ReadError WorkflowRequestSchema :=
  match db.request? id with
  | none => .error .requestNotFound
  | some request =>
      (WorkflowRequestSchema.ofAttributes (request.attributes updatedAt db)).mapError
        .invalidResponse

end RequestView

end WorkflowPlatform
