import WorkflowPlatform.Python.Json
import WorkflowPlatform.Store.Status

/-! # The tables

One structure a table, one list of rows a table, in the order the rows were
inserted. Columns that no modelled function reads or writes are left out.
-/

namespace WorkflowPlatform

open Python

/-- Row identifiers. Fresh ones are drawn in increasing order, so none is drawn twice. -/
abbrev Uuid := ℕ

/-! ## Points in time -/

/-- The last microsecond of the year 9999, counted from the start of the year 1. -/
def maxMicros : ℕ := 315537897599999999

/-- A `datetime`: microseconds since the start of the year 1. -/
structure DateTime where
  micros : ℕ
  le_max : micros ≤ maxMicros
  deriving DecidableEq

namespace DateTime

instance : LT DateTime := ⟨fun first second => first.micros < second.micros⟩

instance : LE DateTime := ⟨fun first second => first.micros ≤ second.micros⟩

instance (first second : DateTime) : Decidable (first < second) :=
  inferInstanceAs (Decidable (first.micros < second.micros))

instance (first second : DateTime) : Decidable (first ≤ second) :=
  inferInstanceAs (Decidable (first.micros ≤ second.micros))

/-- `timedelta(hours=hours)` in microseconds; at most 999999999 days. -/
def timedelta (hours : ℕ) : Option ℕ :=
  if hours / 24 ≤ 999999999 then some (hours * 3600000000) else none

/-- `now + timedelta(hours=hours)`; `none` where Python raises `OverflowError`. -/
def addHours (now : DateTime) (hours : ℕ) : Option DateTime :=
  (timedelta hours).bind fun delta =>
    if hmax : now.micros + delta ≤ maxMicros then some ⟨now.micros + delta, hmax⟩ else none

end DateTime

/-! ## Users -/

structure Permission where
  id : Uuid
  name : String
  deriving DecidableEq

structure Role where
  id : Uuid
  name : String
  permissions : List Permission
  deriving DecidableEq

structure User where
  id : Uuid
  email : String
  isActive : Bool
  roles : List Role
  deriving DecidableEq

/-! ## Definitions -/

structure Workflow where
  id : Uuid
  name : String
  description : Option String
  isActive : Bool
  createdBy : Option Uuid

structure WorkflowStep where
  id : Uuid
  workflowId : Uuid
  stepOrder : ℤ
  name : String
  description : Option String
  requiredRoleId : Option Uuid
  requiredPermissionId : Option Uuid
  slaHours : ℕ
  isConditional : Bool
  conditionConfig : Option Dict

/-- An edge of a workflow: `toStepId = none` ends it. -/
structure StepTransition where
  id : Uuid
  fromStepId : Uuid
  toStepId : Option Uuid
  conditionConfig : Option Dict
  outcome : String

/-! ## Executions -/

structure WorkflowRequest where
  id : Uuid
  workflowId : Uuid
  requesterId : Option Uuid
  currentStepId : Option Uuid
  status : RequestStatus
  requestData : Option Dict
  createdAt : DateTime
  completedAt : Option DateTime

/-- The execution of one step of a request. The comment is kept as it was sent; the
text that the database makes of it is read nowhere. -/
structure RequestStep where
  id : Uuid
  requestId : Uuid
  stepId : Uuid
  status : StepStatus
  assignedTo : Option Uuid
  startedAt : Option DateTime
  completedAt : Option DateTime
  deadline : Option DateTime
  isSlaBreached : Bool
  comments : Option Json
  decisionData : Option Dict

structure RequestStateHistory where
  id : Uuid
  requestId : Uuid
  fromStatus : Option RequestStatus
  toStatus : RequestStatus
  changedBy : Option Uuid
  changedAt : DateTime
  reason : String

/-! ## Audit -/

inductive AuditAction
  | workflowStarted
  | stepCompleted
  | workflowCompleted
  | slaBreachDetected
  deriving DecidableEq, Repr

inductive ResourceType
  | workflowRequest
  | requestStep
  deriving DecidableEq, Repr

/-- A value of an audit entry's metadata. -/
inductive MetaValue
  | uuid (value : Uuid)
  | text (value : String)
  | time (value : DateTime)
  deriving DecidableEq

structure AuditLog where
  id : Uuid
  requestId : Option Uuid
  actorId : Option Uuid
  action : AuditAction
  resourceType : ResourceType
  resourceId : Uuid
  timestamp : DateTime
  metaData : List (String × MetaValue)
  deriving DecidableEq

structure SLAEscalation where
  id : Uuid
  requestStepId : Uuid
  escalatedAt : DateTime
  escalationLevel : ℕ
  deriving DecidableEq

/-! ## The database -/

structure Database where
  workflows : List Workflow
  workflowSteps : List WorkflowStep
  stepTransitions : List StepTransition
  workflowRequests : List WorkflowRequest
  requestSteps : List RequestStep
  requestStateHistory : List RequestStateHistory
  auditLogs : List AuditLog
  slaEscalations : List SLAEscalation
  nextId : Uuid

namespace Database

/-- A database in which nothing was stored yet. -/
def empty : Database := ⟨[], [], [], [], [], [], [], [], 0⟩

variable (db : Database)

def workflow? (id : Uuid) : Option Workflow := db.workflows.find? (·.id = id)

def step? (id : Uuid) : Option WorkflowStep := db.workflowSteps.find? (·.id = id)

def request? (id : Uuid) : Option WorkflowRequest := db.workflowRequests.find? (·.id = id)

/-- The executions of a request, in the order they were opened. -/
def executions (requestId : Uuid) : List RequestStep :=
  db.requestSteps.filter (·.requestId = requestId)

/-- The executions of a request that no decision closed. -/
def openExecutions (requestId : Uuid) : List RequestStep :=
  (db.executions requestId).filter (·.completedAt.isNone)

/-- The steps of a workflow. -/
def stepsOf (workflowId : Uuid) : List WorkflowStep :=
  db.workflowSteps.filter (·.workflowId = workflowId)

/-- The transitions that leave a step with an outcome. -/
def transitionsFrom (stepId : Uuid) (outcome : String) : List StepTransition :=
  db.stepTransitions.filter fun trans => trans.fromStepId = stepId ∧ trans.outcome = outcome

end Database

end WorkflowPlatform
