import WorkflowPlatform.Foundation.Keyed
import WorkflowPlatform.Foundation.UnitOfWork
import WorkflowPlatform.Store.Columns
import WorkflowPlatform.Store.Tables

/-! # Writes

What the sessions of the platform send to the database. An inserted row draws its
identifier when it is flushed. An update names its row by primary key and sets
only the columns that changed. Refused are text that is no member of an enum column,
integers beyond 32 bits, overlong text and text with a NUL, a second workflow of one
name, a null in a column that must not be null, and what a `JSON` or `Text` column
does not take.
-/

namespace WorkflowPlatform

open Python

/-- An attribute set to the value it was loaded with is not written. -/
def changed {Value : Type} [DecidableEq Value] (loaded value : Value) : Option Value :=
  if loaded = value then none else some value

/-- The columns an update of a request sets. -/
structure RequestUpdate where
  status : Option RequestStatus
  currentStepId : Option (Option Uuid)
  completedAt : Option DateTime

/-- The columns a decision sets on the execution it closes. The status is the
text the caller sent, the comment whatever value the context has for it. An open
execution has no decision data and no comment, so a null in either is no change. -/
structure Decision where
  assignedTo : Uuid
  status : Option String
  decisionData : Option Dict
  comments : Option Json
  completedAt : DateTime
  /-- The arrays that the database can make a text of. -/
  castsArray : List Json → Bool

inductive Write
  | insertWorkflow (row : Uuid → Workflow)
  | insertWorkflowStep (row : Uuid → WorkflowStep)
  | insertStepTransition (row : Uuid → StepTransition)
  | insertWorkflowRequest (row : Uuid → WorkflowRequest)
  | updateWorkflowRequest (id : Uuid) (update : RequestUpdate)
  | insertRequestStep (row : Uuid → RequestStep)
  | closeRequestStep (id : Uuid) (decision : Decision)
  | markSlaBreached (id : Uuid)
  | insertRequestStateHistory (row : Uuid → RequestStateHistory)
  | insertAuditLog (row : Uuid → AuditLog)
  | insertSLAEscalation (row : Uuid → SLAEscalation)
  | deleteWorkflow (id : Uuid)

/-- The largest value of an `Integer` column. -/
def maxInteger : ℕ := 2147483647

def RequestUpdate.on (update : RequestUpdate) (row : WorkflowRequest) : WorkflowRequest :=
  { row with
    status := update.status.getD row.status
    currentStepId := update.currentStepId.getD row.currentStepId
    completedAt := update.completedAt.or row.completedAt }

@[simp] theorem RequestUpdate.on_id (update : RequestUpdate) (row : WorkflowRequest) :
    (update.on row).id = row.id := rfl

@[simp] theorem RequestUpdate.on_workflowId (update : RequestUpdate) (row : WorkflowRequest) :
    (update.on row).workflowId = row.workflowId := rfl

@[simp] theorem RequestUpdate.on_requestData (update : RequestUpdate) (row : WorkflowRequest) :
    (update.on row).requestData = row.requestData := rfl

/-- A JSON null in a nullable column is a null. -/
def columnOf : Json → Option Json
  | .null => none
  | value => some value

def Decision.on (decision : Decision) (status : Option StepStatus) (row : RequestStep) :
    RequestStep :=
  { row with
    assignedTo := some decision.assignedTo
    status := status.getD row.status
    decisionData := decision.decisionData.or row.decisionData
    comments := decision.comments.or row.comments
    completedAt := some decision.completedAt }

/-- The columns take the data and the comment of a decision. -/
def Decision.fits (decision : Decision) : Bool :=
  Json.encodesFields (decision.decisionData.getD []) &&
    decision.comments.all (Json.fitsText decision.castsArray)

/-- The status a decision stores, `some none` when it leaves the column alone;
`none` when the row is refused: the text is no member of the enum, or another
column does not take its value. -/
def Decision.storedStatus? (decision : Decision) : Option (Option StepStatus) :=
  if decision.fits then
    match decision.status with
    | none => some none
    | some text => (StepStatus.ofValue? text).map some
  else none

namespace Database

variable (db : Database)

def updateRequest (id : Uuid) (update : RequestUpdate) : Database :=
  { db with workflowRequests := Keyed.update (·.id) id update.on db.workflowRequests }

def closeStep (id : Uuid) (decision : Decision) (status : Option StepStatus) : Database :=
  { db with requestSteps := Keyed.update (·.id) id (decision.on status) db.requestSteps }

def markBreached (id : Uuid) : Database :=
  { db with requestSteps :=
      Keyed.update (·.id) id (fun row => { row with isSlaBreached := true }) db.requestSteps }

/-- Deleting a workflow nulls the workflow of its requests and the step of the
executions of its steps, which the database refuses when there are any. Its steps
go with it, and with them the transitions that leave or enter them. -/
def deleteWorkflow? (id : Uuid) : Option Database :=
  let gone := (db.stepsOf id).map (·.id)
  if db.workflowRequests.any (·.workflowId = id) || db.requestSteps.any (·.stepId ∈ gone) then none
  else some { db with
    workflows := db.workflows.filter (·.id ≠ id)
    workflowSteps := db.workflowSteps.filter (·.workflowId ≠ id)
    stepTransitions := db.stepTransitions.filter fun trans =>
      trans.fromStepId ∉ gone ∧ ∀ stepId ∈ trans.toStepId, stepId ∉ gone
    workflowRequests := db.workflowRequests.map fun row =>
      { row with currentStepId := row.currentStepId.filter (· ∉ gone) } }

end Database

/-- The effect of one write. -/
def Write.apply : Write → Database → Option Database
  | .insertWorkflow row, db =>
      let workflow := row db.nextId
      if db.workflows.any (·.name = workflow.name) || 255 < workflow.name.length ||
          !withoutNul workflow.name || workflow.description.any (!withoutNul ·) then none
      else some { db with workflows := db.workflows ++ [workflow], nextId := db.nextId + 1 }
  | .insertWorkflowStep row, db =>
      let step := row db.nextId
      if (maxInteger : ℤ) < step.stepOrder || maxInteger < step.slaHours ||
          !withoutNul step.name || step.description.any (!withoutNul ·) then none
      else some { db with workflowSteps := db.workflowSteps ++ [step], nextId := db.nextId + 1 }
  | .insertStepTransition row, db =>
      let trans := row db.nextId
      if 50 < trans.outcome.length || !withoutNul trans.outcome ||
          !Json.encodesFields (trans.conditionConfig.getD []) then none
      else some { db with
        stepTransitions := db.stepTransitions ++ [trans], nextId := db.nextId + 1 }
  | .insertWorkflowRequest row, db =>
      let request := row db.nextId
      if !Json.encodesFields (request.requestData.getD []) then none
      else some { db with
        workflowRequests := db.workflowRequests ++ [request], nextId := db.nextId + 1 }
  | .updateWorkflowRequest id update, db => some (db.updateRequest id update)
  | .insertRequestStep row, db =>
      some { db with requestSteps := db.requestSteps ++ [row db.nextId], nextId := db.nextId + 1 }
  | .closeRequestStep id decision, db =>
      decision.storedStatus?.map (db.closeStep id decision)
  | .markSlaBreached id, db => some (db.markBreached id)
  | .insertRequestStateHistory row, db =>
      some { db with
        requestStateHistory := db.requestStateHistory ++ [row db.nextId], nextId := db.nextId + 1 }
  | .insertAuditLog row, db =>
      some { db with auditLogs := db.auditLogs ++ [row db.nextId], nextId := db.nextId + 1 }
  | .insertSLAEscalation row, db =>
      some { db with
        slaEscalations := db.slaEscalations ++ [row db.nextId], nextId := db.nextId + 1 }
  | .deleteWorkflow id, db => db.deleteWorkflow? id

instance : Store Database Write := ⟨Write.apply⟩

@[simp] theorem store_apply (write : Write) (db : Database) :
    Store.apply write db = write.apply db := rfl

end WorkflowPlatform
