import WorkflowPlatform.Engine.ProcessLaws

/-! # The state after a decision

A committed decision closes the open execution of its request and either opens
the next step or completes the request. Both states are given outright, and
`decided_iff` says when a decision reaches which.
-/

namespace WorkflowPlatform

open Python

namespace WorkflowEngine

/-! ## The two states -/

section States

variable (env : Env) (db : Database) (request : WorkflowRequest) (exec : RequestStep)
  (user : User) (outcome : String) (context : Option Dict) (status : Option StepStatus)

/-- The executions with the decided one closed. -/
def closedSteps : List RequestStep :=
  (db.closeStep exec.id (decisionOf env exec user outcome context) status).requestSteps

/-- The state in which the next step is open. -/
def movedOn (nextStep : WorkflowStep) (deadline : DateTime) : Database :=
  { db with
    requestSteps := closedSteps env db exec user outcome context status ++
      [executionRow request.id nextStep.id (env.utcnow 1) deadline db.nextId]
    workflowRequests := (db.updateRequest request.id
      ⟨none, changed request.currentStepId (some nextStep.id), none⟩).workflowRequests
    auditLogs := db.auditLogs ++ [stepAudit env user exec request.id outcome (db.nextId + 1)]
    nextId := db.nextId + 2 }

/-- The state in which the request is completed. -/
def completed : Database :=
  { db with
    requestSteps := closedSteps env db exec user outcome context status
    workflowRequests :=
      (db.updateRequest request.id (completion (env.utcnow 1))).workflowRequests
    requestStateHistory := db.requestStateHistory ++
      [historyRow env request.id request.status (verdictOf outcome) user.id
          s!"Final step outcome: {outcome}" db.nextId,
        historyRow env request.id (verdictOf outcome) .completed user.id
          "Workflow completion" (db.nextId + 1)]
    auditLogs := db.auditLogs ++
      [requestAudit env .workflowCompleted user.id request.id
          [("final_outcome", .text outcome)] (db.nextId + 2),
        stepAudit env user exec request.id outcome (db.nextId + 3)]
    nextId := db.nextId + 4 }

theorem applyAll_moveWrites (nextStep : WorkflowStep) (deadline : DateTime) :
    Store.applyAll (moveWrites env request exec user outcome context nextStep deadline) db =
      (decisionOf env exec user outcome context).storedStatus?.map fun status =>
        movedOn env db request exec user outcome context status nextStep deadline := by
  simp only [moveWrites, closeWrite, Store.applyAll_cons, store_apply, Write.apply]
  cases (decisionOf env exec user outcome context).storedStatus? with
  | none => rfl
  | some status => simp [Write.apply, Store.applyAll_cons, movedOn, closedSteps,
      Database.updateRequest, Database.closeStep]

theorem applyAll_finishWrites :
    Store.applyAll (finishWrites env request exec user outcome context) db =
      (decisionOf env exec user outcome context).storedStatus?.map fun status =>
        completed env db request exec user outcome context status := by
  simp only [finishWrites, closeWrite, Store.applyAll_cons, store_apply, Write.apply]
  cases (decisionOf env exec user outcome context).storedStatus? with
  | none => rfl
  | some status => simp [Write.apply, Store.applyAll_cons, completed, closedSteps,
      Database.updateRequest, Database.closeStep]

end States

/-! ## When a decision is accepted -/

/-- What every accepted decision passes, wherever it leads: the rows it reads,
the access check, the status the enum column takes, and a database that answers. -/
structure Accepted (env : Env) (db : Database) (requestId : Uuid) (user : User) (outcome : String)
    (context : Option Dict) (request : WorkflowRequest) (exec : RequestStep)
    (status : Option StepStatus) : Prop where
  request_read : db.request? requestId = some request
  execution_open : openExecution env.executionOrder db requestId request.currentStepId = some exec
  permitted : rbacError db user exec = none
  status_stored : (decisionOf env exec user outcome context).storedStatus? = some status
  audited : env.dbFails 1 = false
  committed : env.dbFails 2 = false

/-- Where an accepted decision leads. -/
inductive Routed (env : Env) (db : Database) (user : User) (outcome : String)
    (context : Option Dict) (request : WorkflowRequest) (exec : RequestStep)
    (status : Option StepStatus) : Database → Prop
  | moved (nextStep : WorkflowStep) (deadline : DateTime)
      (hnext : nextStepOf env db request outcome context = some nextStep)
      (hdeadline : (env.utcnow 1).addHours nextStep.slaHours = some deadline) :
      Routed env db user outcome context request exec status
        (movedOn env db request exec user outcome context status nextStep deadline)
  | finished (hnext : nextStepOf env db request outcome context = none)
      (haudited : env.dbFails 0 = false)
      (hvalid : isValidTransition request.status (verdictOf outcome) = true) :
      Routed env db user outcome context request exec status
        (completed env db request exec user outcome context status)

theorem applyAll_plan_iff {env : Env} {db db' : Database} {request : WorkflowRequest}
    {exec : RequestStep} {user : User} {outcome : String} {context : Option Dict} :
    (plan env db request exec user outcome context).bind (Store.applyAll · db) = some db' ↔
      rbacError db user exec = none ∧ env.dbFails 1 = false ∧
      ∃ status, (decisionOf env exec user outcome context).storedStatus? = some status ∧
        Routed env db user outcome context request exec status db' := by
  cases hrbac : rbacError db user exec with
  | some error => simp [plan, hrbac]
  | none =>
      have hplan : plan env db request exec user outcome context =
          routeWrites env request exec user outcome context
            (nextStepOf env db request outcome context) := by
        simp [plan, hrbac]
      rw [hplan]
      constructor
      · intro happly
        obtain ⟨writes, hwrites, happly⟩ := Option.bind_eq_some_iff.mp happly
        cases hnext : nextStepOf env db request outcome context with
        | some nextStep =>
            rw [hnext] at hwrites
            simp only [routeWrites, Option.ite_none_left_eq_some, Bool.not_eq_true,
              Option.map_eq_some_iff] at hwrites
            obtain ⟨haudited, deadline, hdeadline, rfl⟩ := hwrites
            rw [applyAll_moveWrites, Option.map_eq_some_iff] at happly
            obtain ⟨status, hstatus, rfl⟩ := happly
            exact ⟨rfl, haudited, status, hstatus, .moved nextStep deadline hnext hdeadline⟩
        | none =>
            rw [hnext] at hwrites
            simp only [routeWrites, Option.ite_none_left_eq_some, Bool.or_eq_true, not_or,
              Bool.not_eq_true, Option.some.injEq, Bool.not_eq_false'] at hwrites
            obtain ⟨⟨⟨haudited, haudited'⟩, hvalid⟩, rfl⟩ := hwrites
            rw [applyAll_finishWrites, Option.map_eq_some_iff] at happly
            obtain ⟨status, hstatus, rfl⟩ := happly
            exact ⟨rfl, haudited', status, hstatus, .finished hnext haudited hvalid⟩
      · rintro ⟨-, haudited', status, hstatus, hrouted⟩
        cases hrouted with
        | moved nextStep deadline hnext hdeadline =>
            simp [hnext, routeWrites, haudited', hdeadline, applyAll_moveWrites, hstatus]
        | finished hnext haudited hvalid =>
            simp [hnext, routeWrites, haudited, haudited', hvalid, applyAll_finishWrites, hstatus]

/-- A decision commits exactly the states it can be routed to. -/
theorem decided_iff {env : Env} {db db' : Database} {requestId : Uuid} {user : User}
    {outcome : String} {context : Option Dict} :
    decided env db requestId user outcome context = some db' ↔
      ∃ request exec status,
        Accepted env db requestId user outcome context request exec status ∧
        Routed env db user outcome context request exec status db' := by
  constructor
  · intro hdecided
    simp only [decided, Option.bind_eq_bind, Option.bind_eq_some_iff] at hdecided
    obtain ⟨request, hrequest, exec, hexec, writes, hwrites, hcommit⟩ := hdecided
    rw [Option.ite_none_left_eq_some, Bool.not_eq_true] at hcommit
    obtain ⟨hcommit, happly⟩ := hcommit
    obtain ⟨hrbac, haudited, status, hstatus, hrouted⟩ := applyAll_plan_iff.mp
      (Option.bind_eq_some_iff.mpr ⟨writes, hwrites, happly⟩)
    exact ⟨request, exec, status, ⟨hrequest, hexec, hrbac, hstatus, haudited, hcommit⟩, hrouted⟩
  · rintro ⟨request, exec, status, haccepted, hrouted⟩
    have happly := applyAll_plan_iff.mpr
      ⟨haccepted.permitted, haccepted.audited, status, haccepted.status_stored, hrouted⟩
    simpa [decided, haccepted.request_read, haccepted.execution_open, haccepted.committed]
      using happly

/-! ## The stored status -/

theorem fits_decisionOf (env : Env) (exec : RequestStep) (user : User) (outcome : String)
    (context : Option Dict) :
    (decisionOf env exec user outcome context).fits = env.stores context := rfl

/-- The decided execution has the outcome as its status, whatever it had before. -/
theorem storedStatus?_eq_some {env : Env} {exec : RequestStep} {user : User} {outcome : String}
    {context : Option Dict} {status : Option StepStatus}
    (hstatus : (decisionOf env exec user outcome context).storedStatus? = some status) :
    (status.getD exec.status).value = outcome := by
  obtain ⟨-, hstatus⟩ := Option.ite_none_right_eq_some.mp hstatus
  simp only [decisionOf, changed] at hstatus
  split at hstatus
  · next hunchanged =>
    rw [ite_eq_left_iff] at hunchanged
    cases hstatus
    exact not_not.mp fun hne => nomatch hunchanged hne
  · next text htext =>
    obtain ⟨-, htext⟩ := Option.ite_none_left_eq_some.mp htext
    cases htext
    obtain ⟨stored, hstored, rfl⟩ := Option.map_eq_some_iff.mp hstatus
    exact StepStatus.ofValue?_eq_some_iff.mp hstored

/-- The columns take a decision when its outcome names a status and its context can be
stored. -/
theorem storedStatus?_isSome (env : Env) (exec : RequestStep) (user : User) (outcome : String)
    (context : Option Dict) :
    (decisionOf env exec user outcome context).storedStatus?.isSome =
      ((StepStatus.ofValue? outcome).isSome && env.stores context) := by
  rw [Decision.storedStatus?, fits_decisionOf]
  cases env.stores context with
  | false => simp
  | true =>
      simp only [if_true, Bool.and_true, decisionOf, changed]
      -- a text that names the status of the execution is no change of the column
      split
      · next hunchanged =>
        rw [ite_eq_left_iff] at hunchanged
        have heq : exec.status.value = outcome := not_not.mp fun hne => nomatch hunchanged hne
        simp [← heq]
      · next text htext =>
        obtain ⟨-, htext⟩ := Option.ite_none_left_eq_some.mp htext
        cases htext
        simp

theorem exists_storedStatus {env : Env} (exec : RequestStep) (user : User) {outcome : String}
    {context : Option Dict} (houtcome : (StepStatus.ofValue? outcome).isSome)
    (hstores : env.stores context = true) :
    ∃ status, (decisionOf env exec user outcome context).storedStatus? = some status := by
  apply Option.isSome_iff_exists.mp
  rw [storedStatus?_isSome, houtcome, hstores]
  rfl

/-- The outcome of an accepted decision names a status, and its context can be stored. -/
theorem Accepted.stored {env : Env} {db : Database} {requestId : Uuid} {user : User}
    {outcome : String} {context : Option Dict} {request : WorkflowRequest} {exec : RequestStep}
    {status : Option StepStatus}
    (haccepted : Accepted env db requestId user outcome context request exec status) :
    (StepStatus.ofValue? outcome).isSome ∧ env.stores context = true := by
  rw [← Bool.and_eq_true, ← storedStatus?_isSome env exec user outcome context,
    haccepted.status_stored]
  rfl

end WorkflowEngine

end WorkflowPlatform
