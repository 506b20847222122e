import WorkflowPlatform.Api.Endpoints

/-! # The state after a start

A committed start adds a request in progress, with one open execution at a first
step of its workflow.
-/

namespace WorkflowPlatform

open Python Tx

namespace WorkflowEngine

/-- A started request. -/
def startedRequest (env : Env) (workflowId requesterId : Uuid) (data : Dict) (first : WorkflowStep)
    (id : Uuid) : WorkflowRequest :=
  { requestRow env workflowId requesterId data id with
    status := .inProgress, currentStepId := some first.id }

/-- The state in which a new request waits at its first step. -/
def startedAt (env : Env) (db : Database) (workflowId requesterId : Uuid) (data : Dict)
    (first : WorkflowStep) (deadline : DateTime) : Database :=
  { db with
    workflowRequests := db.workflowRequests ++
      [startedRequest env workflowId requesterId data first db.nextId]
    requestSteps := db.requestSteps ++
      [executionRow db.nextId first.id (env.utcnow 0) deadline (db.nextId + 2)]
    requestStateHistory := db.requestStateHistory ++
      [historyRow env db.nextId .created .inProgress requesterId "Workflow initiation"
        (db.nextId + 1)]
    auditLogs := db.auditLogs ++
      [requestAudit env .workflowStarted requesterId db.nextId
        [("workflow_id", .uuid workflowId)] (db.nextId + 3)]
    nextId := db.nextId + 4 }

/-- The workflow a start finds. -/
def activeWorkflow (db : Database) (workflowId : Uuid) : Option Workflow :=
  db.workflows.find? fun row => row.id = workflowId ∧ row.isActive

theorem activeWorkflow_spec {db : Database} {workflowId : Uuid} {workflow : Workflow}
    (hworkflow : activeWorkflow db workflowId = some workflow) :
    workflow ∈ db.workflows ∧ workflow.id = workflowId ∧ workflow.isActive = true := by
  have hfound := List.find?_some hworkflow
  exact ⟨List.mem_of_find?_eq_some hworkflow, of_decide_eq_true hfound⟩

/-- The state after a start; `none` when it is refused. -/
def started (env : Env) (db : Database) (workflowId requesterId : Uuid) (data : Dict) :
    Option Database := do
  let _ ← activeWorkflow db workflowId
  let first ← firstStep env.stepOrder db workflowId
  let deadline ← (env.utcnow 0).addHours first.slaHours
  if env.dbFails 0 || !Json.encodesFields data || env.dbFails 1 || env.dbFails 2 ||
      env.brokerFails 0 then none
  else some (startedAt env db workflowId requesterId data first deadline)

theorem started_iff {env : Env} {db db' : Database} {workflowId requesterId : Uuid} {data : Dict} :
    started env db workflowId requesterId data = some db' ↔
      ∃ workflow first deadline, activeWorkflow db workflowId = some workflow ∧
        firstStep env.stepOrder db workflowId = some first ∧
        (env.utcnow 0).addHours first.slaHours = some deadline ∧
        (env.dbFails 0 || !Json.encodesFields data || env.dbFails 1 || env.dbFails 2 ||
          env.brokerFails 0) = false ∧
        db' = startedAt env db workflowId requesterId data first deadline := by
  simp only [started, Option.bind_eq_bind, Option.bind_eq_some_iff, Option.ite_none_left_eq_some,
    Bool.not_eq_true, Option.some.injEq]
  constructor
  · rintro ⟨workflow, hworkflow, first, hfirst, deadline, hdeadline, hup, rfl⟩
    exact ⟨workflow, first, deadline, hworkflow, hfirst, hdeadline, hup, rfl⟩
  · rintro ⟨workflow, first, deadline, hworkflow, hfirst, hdeadline, hup, rfl⟩
    exact ⟨workflow, hworkflow, first, hfirst, deadline, hdeadline, hup, rfl⟩

/-! ## Nothing is committed on the way -/

theorem uncommitted_startWorkflow (env : Env) (workflowId requesterId : Uuid) (data : Dict) :
    Uncommitted (startWorkflow env workflowId requesterId data) :=
  (Uncommitted.query _).bind fun _ => (Uncommitted.orRaise _ _).bind fun _ =>
    (Uncommitted.query _).bind fun _ => (Uncommitted.add _).bind fun _ =>
    (Uncommitted.flush _ _).bind fun _ => (uncommitted_validateTransition _ _).bind fun _ =>
    (Uncommitted.add _).bind fun _ => (Uncommitted.add _).bind fun _ =>
    (Uncommitted.query _).bind fun _ => (Uncommitted.orRaise _ _).bind fun _ =>
    (Uncommitted.orRaise _ _).bind fun _ => (Uncommitted.add _).bind fun _ =>
    (Uncommitted.add _).bind fun _ => (uncommitted_logAction _ _ _).bind fun _ =>
    (Uncommitted.enqueue _ _ _).bind fun _ => Uncommitted.pure _

/-! ## The writes of a start -/

/-- The database after the flush that inserts the request. -/
def withNewRequest (env : Env) (db : Database) (workflowId requesterId : Uuid) (data : Dict) :
    Database :=
  { db with
    workflowRequests := db.workflowRequests ++
      [requestRow env workflowId requesterId data db.nextId]
    nextId := db.nextId + 1 }

/-- Everything a start writes after that flush. -/
def startWrites (env : Env) (db : Database) (workflowId requesterId : Uuid) (first : WorkflowStep)
    (deadline : DateTime) : List Write :=
  [.updateWorkflowRequest db.nextId ⟨some .inProgress, none, none⟩,
    .insertRequestStateHistory
      (historyRow env db.nextId .created .inProgress requesterId "Workflow initiation"),
    .insertRequestStep (executionRow db.nextId first.id (env.utcnow 0) deadline),
    .updateWorkflowRequest db.nextId ⟨none, some (some first.id), none⟩,
    .insertAuditLog (requestAudit env .workflowStarted requesterId db.nextId
      [("workflow_id", .uuid workflowId)])]

/-- The two updates only touch the inserted row, which alone has its identifier. -/
theorem applyAll_startWrites (env : Env) {db : Database} (workflowId requesterId : Uuid)
    (data : Dict) (first : WorkflowStep) (deadline : DateTime)
    (hfresh : ∀ row ∈ db.workflowRequests, row.id ≠ db.nextId) :
    Store.applyAll (startWrites env db workflowId requesterId first deadline)
        (withNewRequest env db workflowId requesterId data) =
      some (startedAt env db workflowId requesterId data first deadline) := by
  have hupdate : ∀ update row, row.id = db.nextId →
      Keyed.update (·.id) db.nextId update.on (db.workflowRequests ++ [row]) =
        db.workflowRequests ++ [RequestUpdate.on update row] := by
    intro update row hid
    rw [Keyed.update, List.map_append, ← Keyed.update, Keyed.update_of_fresh hfresh,
      List.map_singleton, if_pos hid]
  simp only [startWrites, withNewRequest, Store.applyAll_cons, Store.applyAll_nil, store_apply,
    Write.apply, Database.updateRequest, Option.bind_some]
  rw [hupdate _ _ rfl, hupdate _ _ rfl]
  simp [startedAt, startedRequest, RequestUpdate.on, requestRow, Nat.add_assoc]

/-! ## The start -/

/-- The flush that inserts the request, which data that is no JSON does not get through. -/
theorem run_insertRequest (env : Env) (db : Database) (workflowId requesterId : Uuid)
    (data : Dict) :
    (flush (env.dbFails 0) .databaseError : EngineTx Unit).run
        ⟨db, db, [], [.insertWorkflowRequest (requestRow env workflowId requesterId data)], []⟩ =
      if env.dbFails 0 || !Json.encodesFields data then (.error .databaseError,
        ⟨db, db, [], [.insertWorkflowRequest (requestRow env workflowId requesterId data)], []⟩)
      else (.ok (), ⟨db, withNewRequest env db workflowId requesterId data,
        [.insertWorkflowRequest (requestRow env workflowId requesterId data)], [], []⟩) := by
  have hdata : (requestRow env workflowId requesterId data db.nextId).requestData.getD [] =
      data := rfl
  cases env.dbFails 0 with
  | true => rfl
  | false =>
      cases hencodes : Json.encodesFields data <;>
        simp [flush, Store.applyAll_cons, Write.apply, withNewRequest, hdata, hencodes]

/-- What a start finds on its way to its last statement, or the error that stops it. -/
def startable (env : Env) (db : Database) (workflowId : Uuid) (data : Dict) :
    Except EngineError (Workflow × WorkflowStep × DateTime) :=
  match activeWorkflow db workflowId with
  | none => .error (.workflowNotFound workflowId)
  | some workflow =>
      if env.dbFails 0 || !Json.encodesFields data then .error .databaseError
      else match firstStep env.stepOrder db workflowId with
        | none => .error .noFirstStep
        | some first =>
            match (env.utcnow 0).addHours first.slaHours with
            | none => .error .overflowError
            | some deadline =>
                if env.dbFails 1 then .error .databaseError
                else if env.brokerFails 0 then .error .brokerError
                else .ok (workflow, first, deadline)

theorem startable_eq_ok_iff {env : Env} {db : Database} {workflowId : Uuid} {data : Dict}
    {workflow : Workflow} {first : WorkflowStep} {deadline : DateTime} :
    startable env db workflowId data = .ok (workflow, first, deadline) ↔
      activeWorkflow db workflowId = some workflow ∧
        (env.dbFails 0 = false ∧ Json.encodesFields data = true) ∧
        firstStep env.stepOrder db workflowId = some first ∧
        (env.utcnow 0).addHours first.slaHours = some deadline ∧ env.dbFails 1 = false ∧
        env.brokerFails 0 = false := by
  constructor
  · intro hstartable
    unfold startable at hstartable
    repeat' split at hstartable
    -- only the last branch returns
    all_goals cases hstartable
    next hinserted _ _ haudited hbroker hworkflow hfirst hdeadline =>
      rw [Bool.not_eq_true] at hinserted haudited hbroker
      simp only [Bool.or_eq_false_iff, Bool.not_eq_false'] at hinserted
      exact ⟨hworkflow, hinserted, hfirst, hdeadline, haudited, hbroker⟩
  · rintro ⟨hworkflow, ⟨hinserted, hencodes⟩, hfirst, hdeadline, haudited, hbroker⟩
    simp [startable, hworkflow, hinserted, hencodes, hfirst, hdeadline, haudited, hbroker]

/-- A start that can go on has flushed the new request and told its assignees; any other one
has told nobody. -/
theorem run_startWorkflow (env : Env) {db : Database} (workflowId requesterId : Uuid)
    (data : Dict) (hfresh : ∀ row ∈ db.workflowRequests, row.id ≠ db.nextId) :
    match startable env db workflowId data with
    | .error error => ∃ session,
        (startWorkflow env workflowId requesterId data).run (Session.begin db) =
          (.error error, session) ∧ session.enqueued = []
    | .ok (workflow, first, deadline) => ∃ written,
        (startWorkflow env workflowId requesterId data).run (Session.begin db) =
          (.ok (startedRequest env workflowId requesterId data first db.nextId),
            ⟨db, startedAt env db workflowId requesterId data first deadline, written, [],
              [.notifyNewAssignment first.id db.nextId workflow.name first.name deadline]⟩) := by
  cases hworkflow : activeWorkflow db workflowId with
  | none =>
      simp only [startable, hworkflow]
      rw [activeWorkflow] at hworkflow
      simp only [startWorkflow, Session.begin, run_query_bind, hworkflow]
      exact ⟨_, rfl, rfl⟩
  | some workflow =>
      simp only [startable, hworkflow]
      rw [activeWorkflow] at hworkflow
      have hsame : firstStep env.stepOrder (withNewRequest env db workflowId requesterId data)
        workflowId = firstStep env.stepOrder db workflowId := rfl
      simp only [startWorkflow, Session.begin, run_query_bind, hworkflow, run_orRaise_some_bind,
        run_add_bind, List.nil_append]
      have hrun := run_insertRequest env db workflowId requesterId data
      cases hinsert : env.dbFails 0 || !Json.encodesFields data with
      | true =>
          rw [hinsert, if_pos rfl] at hrun
          exact ⟨_, run_bind_error _ hrun, rfl⟩
      | false =>
          have hvalid : isValidTransition .created .inProgress = true := rfl
          rw [hinsert, if_neg Bool.false_ne_true] at hrun
          rw [run_bind_ok _ hrun]
          simp only [validateTransition_of_valid hvalid, run_pure_bind, run_add_bind,
            run_query_bind, hsame, Bool.false_eq_true, if_false]
          cases firstStep env.stepOrder db workflowId with
          | none => exact ⟨_, rfl, rfl⟩
          | some first =>
              simp only [run_orRaise_some_bind]
              cases (env.utcnow 0).addHours first.slaHours with
              | none => exact ⟨_, rfl, rfl⟩
              | some deadline =>
                  have happly := applyAll_startWrites env workflowId requesterId data first
                    deadline hfresh
                  simp only [startWrites] at happly
                  simp only [run_orRaise_some_bind, run_add_bind, List.nil_append,
                    List.cons_append]
                  rw [run_bind, run_logAction]
                  simp only [List.nil_append, List.cons_append, happly]
                  cases haudit : env.dbFails 1 with
                  | true => exact ⟨_, rfl, rfl⟩
                  | false =>
                      cases hbroker : env.brokerFails 0 with
                      | true =>
                          simp only [Bool.false_eq_true, if_false, if_true, notifyNewAssignment,
                            enqueue, run_bind, hbroker]
                          exact ⟨_, rfl, rfl⟩
                      | false =>
                          simp only [Bool.false_eq_true, if_false, notifyNewAssignment, enqueue,
                            run_bind, hbroker]
                          exact ⟨_, rfl⟩

/-- What a start answers, the state it leaves and the task it has handed over. -/
theorem finished_startWorkflow (env : Env) {db : Database} (workflowId requesterId : Uuid)
    (data : Dict) (hfresh : ∀ row ∈ db.workflowRequests, row.id ≠ db.nextId) :
    Tx.perform (Endpoint.startWorkflow env workflowId requesterId data) db =
      match startable env db workflowId data with
      | .error error => ⟨.error error, db, []⟩
      | .ok (workflow, first, deadline) =>
          if env.dbFails 2 then ⟨.error .databaseError, db,
            [.notifyNewAssignment first.id db.nextId workflow.name first.name deadline]⟩
          else ⟨.ok (startedRequest env workflowId requesterId data first db.nextId),
            startedAt env db workflowId requesterId data first deadline,
            [.notifyNewAssignment first.id db.nextId workflow.name first.name deadline]⟩ := by
  have huncommitted := uncommitted_startWorkflow env workflowId requesterId data
  have hrun := run_startWorkflow env workflowId requesterId data hfresh
  rw [Endpoint.startWorkflow]
  cases hstartable : startable env db workflowId data with
  | error error =>
      rw [hstartable] at hrun
      obtain ⟨session, hrun, htasks⟩ := hrun
      rw [perform_transaction_of_raised huncommitted hrun, htasks]
  | ok found =>
      rw [hstartable] at hrun
      obtain ⟨written, hrun⟩ := hrun
      rw [perform_transaction_of_ok hrun rfl]

theorem started_eq (env : Env) (db : Database) (workflowId requesterId : Uuid) (data : Dict) :
    started env db workflowId requesterId data =
      match startable env db workflowId data with
      | .error _ => none
      | .ok (_, first, deadline) =>
          if env.dbFails 2 then none
          else some (startedAt env db workflowId requesterId data first deadline) := by
  rw [started, startable]
  generalize (env.dbFails 0 || !Json.encodesFields data) = refused
  cases activeWorkflow db workflowId with
  | none => rfl
  | some workflow =>
      cases firstStep env.stepOrder db workflowId with
      | none => cases refused <;> rfl
      | some first =>
          cases hdeadline : (env.utcnow 0).addHours first.slaHours with
          | none => cases refused <;> simp [hdeadline]
          | some deadline =>
              cases refused <;> cases env.dbFails 1 <;> cases env.dbFails 2 <;>
                cases env.brokerFails 0 <;> simp [hdeadline]

/-- A start either commits a request at its first step, or raises and leaves the
state alone. -/
theorem perform_startWorkflow {env : Env} {db : Database}
    (hfresh : ∀ row ∈ db.workflowRequests, row.id ≠ db.nextId) (workflowId requesterId : Uuid)
    (data : Dict) :
    (Call.startWorkflow env workflowId requesterId data).perform db =
      (started env db workflowId requesterId data).getD db := by
  rw [Call.perform, finished_startWorkflow env workflowId requesterId data hfresh, started_eq]
  cases startable env db workflowId data with
  | error error => rfl
  | ok found => cases env.dbFails 2 <;> rfl

end WorkflowEngine

end WorkflowPlatform
