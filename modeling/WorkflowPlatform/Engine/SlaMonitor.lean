import WorkflowPlatform.Engine.Transaction

/-! # The SLA monitor

The scan reads the overdue executions once, escalates them one by one in one
session, swallows the exception of each, and commits when any was escalated.
-/

namespace WorkflowPlatform

open Python Tx

namespace SLAMonitor

/-- Recipients of breach alerts. -/
def adminEmails : List String := ["admin@workflow-platform.com"]

/-- An execution that is pending or in progress, past its deadline and not marked yet. -/
def overdue (now : DateTime) (exec : RequestStep) : Bool :=
  (exec.status = .pending || exec.status = .inProgress) &&
    exec.deadline.any (fun deadline => decide (deadline < now)) && !exec.isSlaBreached

def escalationRow (now : DateTime) (requestStepId : Uuid) (id : Uuid) : SLAEscalation where
  id := id
  requestStepId := requestStepId
  escalatedAt := now
  escalationLevel := 1

def breachAudit (env : Env) (exec : RequestStep) (deadline : DateTime) (id : Uuid) : AuditLog where
  id := id
  requestId := some exec.requestId
  actorId := none
  action := .slaBreachDetected
  resourceType := .requestStep
  resourceId := exec.id
  timestamp := env.began
  metaData := [("deadline", .time deadline)]

/-- The alert about an execution; its workflow and step are looked up for their names. -/
def breachAlert (db : Database) (exec : RequestStep) (deadline : DateTime) : Option Task := do
  let request ← db.request? exec.requestId
  let workflow ← db.workflow? request.workflowId
  let step ← db.step? exec.stepId
  return .sendSlaBreachEmail adminEmails workflow.name step.name exec.requestId deadline

/-- `_escalate_step` on the execution at one position of the scan. Its round trip
and its hand-over to the broker have the number of that position. -/
def escalateStep (env : Env) (position : ℕ) (exec : RequestStep) : EngineTx Unit := do
  add (.markSlaBreached exec.id)
  add (.insertSLAEscalation (escalationRow (env.utcnow (position + 1)) exec.id))
  let deadline ← orRaise exec.deadline .attributeError
  logAction env position (breachAudit env exec deadline)
  let alert ← query fun db => breachAlert db exec deadline
  let alert ← orRaise alert .attributeError
  enqueue (env.brokerFails position) .brokerError alert

/-- The loop over the overdue executions, counting those that raised nothing. -/
def escalateEach (env : Env) : ℕ → ℕ → List RequestStep → EngineTx ℕ
  | _, breachCount, [] => pure breachCount
  | position, breachCount, exec :: rest => do
      match ← attempt (escalateStep env position exec) with
      | some () => escalateEach env (position + 1) (breachCount + 1) rest
      | none => escalateEach env (position + 1) breachCount rest

/-- The overdue executions, as the rows come. -/
def overdueSteps (env : Env) (db : Database) : List RequestStep :=
  env.executionOrder.rows (db.requestSteps.filter (overdue (env.utcnow 0)))

/-- `scan_for_breaches`. -/
def scanForBreaches (env : Env) : EngineTx ℕ := do
  let overdueSteps ← query (overdueSteps env)
  let breachCount ← escalateEach env 0 0 overdueSteps
  if 0 < breachCount then commit (env.dbFails overdueSteps.length) .databaseError
  return breachCount

end SLAMonitor

end WorkflowPlatform
