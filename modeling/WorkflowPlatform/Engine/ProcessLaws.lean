import WorkflowPlatform.Api.Endpoints

/-! # What a decision writes

The decision of a step is a plan, the writes it sends, followed by a commit. The
plan is a function of the rows the decision has read and of the definitions, so
it says at once which decisions are refused and what the others do to the state.
-/

namespace WorkflowPlatform

open Python Tx

namespace WorkflowEngine

/-! ## The plan -/

/-- The access check as a predicate: the error it raises, if any. -/
def rbacError (db : Database) (user : User) (exec : RequestStep) : Option EngineError :=
  if isAdmin user then none
  else match db.step? exec.stepId with
    | none => some .attributeError
    | some stepDef => missing user stepDef

theorem missing_eq_none_iff {user : User} {stepDef : WorkflowStep} :
    missing user stepDef = none ↔ (∀ roleId ∈ stepDef.requiredRoleId, roleId ∈ roleIds user) ∧
      ∀ permissionId ∈ stepDef.requiredPermissionId, permissionId ∈ permissionIds user := by
  cases hrole : stepDef.requiredRoleId <;>
    cases hpermission : stepDef.requiredPermissionId <;> grind [missing]

/-- The step a decision leads to. -/
def nextStepOf (env : Env) (db : Database) (request : WorkflowRequest) (outcome : String)
    (context : Option Dict) : Option WorkflowStep :=
  resolveNext env.transitionOrder db request.currentStepId outcome
    (evalContext request.requestData context)

def closeWrite (env : Env) (exec : RequestStep) (user : User) (outcome : String)
    (context : Option Dict) : Write :=
  .closeRequestStep exec.id (decisionOf env exec user outcome context)

/-- The writes that open the next step. -/
def moveWrites (env : Env) (request : WorkflowRequest) (exec : RequestStep) (user : User)
    (outcome : String) (context : Option Dict) (nextStep : WorkflowStep) (deadline : DateTime) :
    List Write :=
  [closeWrite env exec user outcome context,
    .insertRequestStep (executionRow request.id nextStep.id (env.utcnow 1) deadline),
    .updateWorkflowRequest request.id
      ⟨none, changed request.currentStepId (some nextStep.id), none⟩,
    .insertAuditLog (stepAudit env user exec request.id outcome)]

/-- The writes that complete the request. -/
def finishWrites (env : Env) (request : WorkflowRequest) (exec : RequestStep) (user : User)
    (outcome : String) (context : Option Dict) : List Write :=
  [closeWrite env exec user outcome context,
    .insertRequestStateHistory (historyRow env request.id request.status (verdictOf outcome) user.id
      s!"Final step outcome: {outcome}"),
    .updateWorkflowRequest request.id (completion (env.utcnow 1)),
    .insertRequestStateHistory (historyRow env request.id (verdictOf outcome) .completed user.id
      "Workflow completion"),
    .insertAuditLog (requestAudit env .workflowCompleted user.id request.id
      [("final_outcome", .text outcome)]),
    .insertAuditLog (stepAudit env user exec request.id outcome)]

/-- The writes of a routed decision; `none` when it raises before its last flush. -/
def routeWrites (env : Env) (request : WorkflowRequest) (exec : RequestStep) (user : User)
    (outcome : String) (context : Option Dict) : Option WorkflowStep → Option (List Write)
  | some nextStep =>
      if env.dbFails 1 then none
      else ((env.utcnow 1).addHours nextStep.slaHours).map
        (moveWrites env request exec user outcome context nextStep)
  | none =>
      if env.dbFails 0 || env.dbFails 1 || !isValidTransition request.status (verdictOf outcome)
      then none
      else some (finishWrites env request exec user outcome context)

/-- The writes of a decision on the rows it has read; `none` when it raises. -/
def plan (env : Env) (db : Database) (request : WorkflowRequest) (exec : RequestStep) (user : User)
    (outcome : String) (context : Option Dict) : Option (List Write) :=
  if (rbacError db user exec).isSome then none
  else routeWrites env request exec user outcome context (nextStepOf env db request outcome context)

/-- A verdict is an approval or a rejection. -/
theorem verdictOf_cases (outcome : String) :
    verdictOf outcome = .approved ∨ verdictOf outcome = .rejected := by
  unfold verdictOf
  split
  · exact .inl rfl
  · exact .inr rfl

/-- A request in progress may get any verdict. -/
theorem verdictOf_follows (outcome : String) :
    isValidTransition .inProgress (verdictOf outcome) = true := by
  rcases verdictOf_cases outcome with hverdict | hverdict <;> rw [hverdict] <;> rfl

theorem verdictOf_completes (outcome : String) :
    isValidTransition (verdictOf outcome) .completed = true := by
  rcases verdictOf_cases outcome with hverdict | hverdict <;> rw [hverdict] <;> rfl

/-! ## Nothing is committed on the way -/

theorem uncommitted_enforceRbac (user : User) (exec : RequestStep) :
    Uncommitted (enforceRbac user exec) := by
  unfold enforceRbac
  split
  · exact Uncommitted.pure _
  · refine (Uncommitted.query _).bind fun _ => (Uncommitted.orRaise _ _).bind fun stepDef => ?_
    split
    · exact Uncommitted.raise _
    · exact Uncommitted.pure _

theorem uncommitted_moveTo (env : Env) (request : WorkflowRequest) (nextStep : WorkflowStep) :
    Uncommitted (moveTo env request nextStep) := by
  refine (Uncommitted.orRaise _ _).bind fun deadline => (Uncommitted.add _).bind fun _ =>
    (Uncommitted.add _).bind fun _ => Uncommitted.bind ?_ fun _ => Uncommitted.pure _
  exact Uncommitted.attempt ((Uncommitted.query _).bind fun _ =>
    (Uncommitted.orRaise _ _).bind fun _ => Uncommitted.enqueue _ _ _)

theorem uncommitted_finalize (env : Env) (request : WorkflowRequest) (outcome : String)
    (actorId : Uuid) : Uncommitted (finalize env request outcome actorId) :=
  (uncommitted_validateTransition _ _).bind fun _ => (Uncommitted.add _).bind fun _ =>
    (uncommitted_validateTransition _ _).bind fun _ => (Uncommitted.add _).bind fun _ =>
      (Uncommitted.add _).bind fun _ => (uncommitted_logAction _ _ _).bind fun _ =>
        Uncommitted.pure _

theorem uncommitted_closeAndRoute (env : Env) (request : WorkflowRequest) (exec : RequestStep)
    (user : User) (outcome : String) (context : Option Dict) :
    Uncommitted (closeAndRoute env request exec user outcome context) := by
  refine (uncommitted_enforceRbac user exec).bind fun _ => (Uncommitted.add _).bind fun _ =>
    (Uncommitted.query _).bind fun nextStep => ?_
  cases nextStep with
  | some nextStep =>
      exact (uncommitted_moveTo env request nextStep).bind fun _ =>
        (uncommitted_logAction _ _ _).bind fun _ => Uncommitted.pure _
  | none =>
      exact (uncommitted_finalize env request outcome user.id).bind fun _ =>
        (uncommitted_logAction _ _ _).bind fun _ => Uncommitted.pure _

theorem uncommitted_processStep (env : Env) (requestId : Uuid) (user : User) (outcome : String)
    (context : Option Dict) : Uncommitted (processStep env requestId user outcome context) :=
  ((Uncommitted.query _).bind fun _ => Uncommitted.orRaise _ _).bind fun request =>
    ((Uncommitted.query _).bind fun _ => Uncommitted.orRaise _ _).bind fun exec =>
      uncommitted_closeAndRoute env request exec user outcome context

/-! ## The access check -/

theorem run_enforceRbac (user : User) (exec : RequestStep)
    (session : Session Database Write Task) :
    (enforceRbac user exec).run session =
      match rbacError session.flushed user exec with
      | some error => (.error error, session)
      | none => (.ok (), session) := by
  unfold enforceRbac rbacError
  split
  · rfl
  · cases hstep : session.flushed.step? exec.stepId with
    | none => simp [hstep]
    | some stepDef =>
        simp only [run_query_bind, hstep, run_orRaise_some_bind]
        cases missing user stepDef <;> rfl

/-! ## The engine follows the plan -/

/-- The tasks that tell the assignees of the next step, if the broker takes them. -/
def told (env : Env) (db : Database) (request : WorkflowRequest) (nextStep : WorkflowStep)
    (deadline : DateTime) : List Task :=
  if env.brokerFails 0 then []
  else ((db.workflow? request.workflowId).map fun workflow =>
    Task.notifyNewAssignment nextStep.id request.id workflow.name nextStep.name deadline).toList

/-- Telling the assignees never fails the decision and touches nothing but the
messages sent. -/
theorem run_notify (env : Env) (request : WorkflowRequest) (nextStep : WorkflowStep)
    (deadline : DateTime) (session : Session Database Write Task) :
    ∃ done, (attempt do
        let workflow ← query (·.workflow? request.workflowId)
        let workflow ← orRaise workflow .attributeError
        notifyNewAssignment env workflow.name nextStep request.id deadline :
          EngineTx _).run session =
      (.ok done, { session with
        enqueued := session.enqueued ++ told env session.flushed request nextStep deadline }) := by
  cases hworkflow : session.flushed.workflow? request.workflowId with
  | none => exact ⟨none, by simp [attempt, hworkflow, told]⟩
  | some workflow =>
      cases hfails : env.brokerFails 0 with
      | true => exact ⟨none, by
          simp [attempt, hworkflow, notifyNewAssignment, enqueue, hfails, told]⟩
      | false => exact ⟨some (), by
          simp [attempt, hworkflow, notifyNewAssignment, enqueue, hfails, told]⟩

theorem run_moveTo (env : Env) (request : WorkflowRequest) (nextStep : WorkflowStep)
    (session : Session Database Write Task) :
    (moveTo env request nextStep).run session =
      match (env.utcnow 1).addHours nextStep.slaHours with
      | none => (.error .overflowError, session)
      | some deadline => (.ok { request with currentStepId := some nextStep.id }, { session with
          pending := session.pending ++
            [.insertRequestStep (executionRow request.id nextStep.id (env.utcnow 1) deadline),
              .updateWorkflowRequest request.id
                ⟨none, changed request.currentStepId (some nextStep.id), none⟩]
          enqueued := session.enqueued ++
            told env session.flushed request nextStep deadline }) := by
  cases hdeadline : (env.utcnow 1).addHours nextStep.slaHours with
  | none => simp [moveTo, hdeadline]
  | some deadline =>
      simp only [moveTo, hdeadline, run_orRaise_some_bind, run_add_bind]
      obtain ⟨done, hnotify⟩ := run_notify env request nextStep deadline { session with
        pending := session.pending ++
          [.insertRequestStep (executionRow request.id nextStep.id (env.utcnow 1) deadline)] ++
          [.updateWorkflowRequest request.id
            ⟨none, changed request.currentStepId (some nextStep.id), none⟩] }
      rw [run_bind_ok _ hnotify]
      simp

/-- The writes of `_finalize` and the one that closes the execution. -/
def finalWrites (env : Env) (request : WorkflowRequest) (outcome : String) (actorId : Uuid) :
    List Write :=
  [.insertRequestStateHistory (historyRow env request.id request.status (verdictOf outcome) actorId
      s!"Final step outcome: {outcome}"),
    .updateWorkflowRequest request.id (completion (env.utcnow 1)),
    .insertRequestStateHistory (historyRow env request.id (verdictOf outcome) .completed actorId
      "Workflow completion"),
    .insertAuditLog (requestAudit env .workflowCompleted actorId request.id
      [("final_outcome", .text outcome)])]

theorem finishWrites_eq (env : Env) (request : WorkflowRequest) (exec : RequestStep) (user : User)
    (outcome : String) (context : Option Dict) :
    finishWrites env request exec user outcome context =
      (closeWrite env exec user outcome context :: finalWrites env request outcome user.id) ++
        [.insertAuditLog (stepAudit env user exec request.id outcome)] := rfl

/-- `_finalize` flushes everything that is pending together with its own writes. -/
theorem run_finalize (env : Env) (request : WorkflowRequest) (outcome : String) (actorId : Uuid)
    (session : Session Database Write Task) :
    (finalize env request outcome actorId).run session =
      if !isValidTransition request.status (verdictOf outcome) then
        (.error (.invalidStateTransition request.status (verdictOf outcome)), session)
      else
        match if env.dbFails 0 then none
          else Store.applyAll (session.pending ++ finalWrites env request outcome actorId)
            session.flushed with
        | some flushed =>
            (.ok { request with
              status := .completed, currentStepId := none, completedAt := some (env.utcnow 1) },
              { session with
                flushed := flushed
                written := session.written ++
                  (session.pending ++ finalWrites env request outcome actorId)
                pending := [] })
        | none => (.error .databaseError, session.rolledBack) := by
  cases hvalid : isValidTransition request.status (verdictOf outcome) with
  | false => simp [finalize, validateTransition, hvalid]
  | true =>
      simp only [finalize, validateTransition_of_valid hvalid,
        validateTransition_of_valid (verdictOf_completes outcome), run_pure_bind, run_add_bind,
        List.append_assoc, List.cons_append, List.nil_append, Bool.not_true, Bool.false_eq_true,
        if_false, finalWrites]
      rw [run_bind, run_logAction]
      simp only [List.append_assoc, List.cons_append, List.nil_append]
      generalize Store.applyAll (_ : List Write) session.flushed = applied
      cases env.dbFails 0 <;> cases applied <;> rfl

/-- The tasks a routed decision has handed over by its last flush. -/
def routeTasks (env : Env) (db : Database) (request : WorkflowRequest) :
    Option WorkflowStep → List Task
  | some nextStep =>
      match (env.utcnow 1).addHours nextStep.slaHours with
      | some deadline => told env db request nextStep deadline
      | none => []
  | none => []

/-- The error of a routed decision that does not succeed. -/
def routeError (env : Env) (request : WorkflowRequest) (outcome : String) :
    Option WorkflowStep → EngineError
  | some nextStep =>
      match (env.utcnow 1).addHours nextStep.slaHours with
      | some _ => .databaseError
      | none => .overflowError
  | none =>
      if isValidTransition request.status (verdictOf outcome) then .databaseError
      else .invalidStateTransition request.status (verdictOf outcome)

/-- A run that has written just what was planned, or has raised because there is no
plan or the database refuses it. Either way it has handed over its tasks. -/
inductive Executes (db : Database) (planned : Option (List Write)) (refusal : EngineError)
    (tasks : List Task) : Except EngineError WorkflowRequest × Session Database Write Task → Prop
  | done {writes : List Write} {db' : Database} (value : WorkflowRequest)
      (hplanned : planned = some writes) (happly : Store.applyAll writes db = some db') :
      Executes db planned refusal tasks (.ok value, ⟨db, db', writes, [], tasks⟩)
  | raised (session : Session Database Write Task)
      (hnone : planned.bind (Store.applyAll · db) = none) (htasks : session.enqueued = tasks) :
      Executes db planned refusal tasks (.error refusal, session)

section Route

variable (env : Env) (db : Database) (request : WorkflowRequest) (exec : RequestStep) (user : User)
  (outcome : String) (context : Option Dict)

/-- The writes of a move are flushed together by the audit entry of the step. -/
theorem executes_moveTo (nextStep : WorkflowStep) :
    Executes db (routeWrites env request exec user outcome context (some nextStep))
      (routeError env request outcome (some nextStep)) (routeTasks env db request (some nextStep))
      ((do
        let request' ← moveTo env request nextStep
        logAction env 1 (stepAudit env user exec request'.id outcome)
        return request' : EngineTx WorkflowRequest).run
          ⟨db, db, [], [closeWrite env exec user outcome context], []⟩) := by
  have hmove := run_moveTo env request nextStep
    ⟨db, db, [], [closeWrite env exec user outcome context], []⟩
  rw [routeError, routeTasks]
  cases hdeadline : (env.utcnow 1).addHours nextStep.slaHours with
  | none =>
      rw [hdeadline] at hmove
      rw [run_bind_error _ hmove]
      exact .raised _ (by simp [routeWrites, hdeadline]) rfl
  | some deadline =>
      rw [hdeadline] at hmove
      rw [run_bind_ok _ hmove, run_bind, run_logAction]
      simp only [List.cons_append, List.nil_append]
      cases hup : env.dbFails 1 with
      | true => exact .raised _ (by simp [routeWrites, hup]) rfl
      | false =>
          have hroute : routeWrites env request exec user outcome context (some nextStep) =
              some (moveWrites env request exec user outcome context nextStep deadline) := by
            simp [routeWrites, hup, hdeadline]
          rw [moveWrites] at hroute
          cases happly : Store.applyAll
              (moveWrites env request exec user outcome context nextStep deadline) db with
          | none =>
              rw [moveWrites] at happly
              simp only [happly, Bool.false_eq_true, if_false]
              exact .raised _ (by rw [hroute, Option.bind_some, happly]) rfl
          | some db' =>
              rw [moveWrites] at happly
              simp only [happly, Bool.false_eq_true, if_false]
              exact .done _ hroute happly

/-- The writes of a completion are flushed by `_finalize`, its audit entry after them. -/
theorem executes_finalize :
    Executes db (routeWrites env request exec user outcome context none)
      (routeError env request outcome none) (routeTasks env db request none)
      ((do
        let request' ← finalize env request outcome user.id
        logAction env 1 (stepAudit env user exec request'.id outcome)
        return request' : EngineTx WorkflowRequest).run
          ⟨db, db, [], [closeWrite env exec user outcome context], []⟩) := by
  have hfinalize := run_finalize env request outcome user.id
    ⟨db, db, [], [closeWrite env exec user outcome context], []⟩
  rw [List.singleton_append] at hfinalize
  rw [routeError, routeTasks]
  cases hvalid : isValidTransition request.status (verdictOf outcome) with
  | false =>
      simp only [hvalid, Bool.not_false, if_true] at hfinalize
      rw [run_bind_error _ hfinalize]
      exact .raised _ (by simp [routeWrites, hvalid]) rfl
  | true =>
      simp only [hvalid, Bool.not_true, Bool.false_eq_true, if_false] at hfinalize
      cases hup : env.dbFails 0 with
      | true =>
          simp only [hup, if_true] at hfinalize
          rw [run_bind_error _ hfinalize]
          exact .raised _ (by simp [routeWrites, hup]) rfl
      | false =>
          simp only [hup, Bool.false_eq_true, if_false] at hfinalize
          have hroute : routeWrites env request exec user outcome context none =
              if env.dbFails 1 then none
              else some (finishWrites env request exec user outcome context) := by
            simp [routeWrites, hvalid, hup]
          rw [finishWrites_eq] at hroute
          cases hmiddle : Store.applyAll (closeWrite env exec user outcome context ::
              finalWrites env request outcome user.id) db with
          | none =>
              rw [hmiddle] at hfinalize
              rw [run_bind_error _ hfinalize]
              refine .raised _ ?_ rfl
              rw [hroute]
              split
              · rfl
              · rw [Option.bind_some, Store.applyAll_append, hmiddle, Option.bind_none]
          | some middle =>
              rw [hmiddle] at hfinalize
              rw [run_bind_ok _ hfinalize, run_bind, run_logAction, List.nil_append]
              cases hup' : env.dbFails 1 with
              | true => exact .raised _ (by rw [hroute, if_pos hup', Option.bind_none]) rfl
              | false =>
                  rw [if_neg (by simp [hup'])] at hroute
                  -- the database takes any audit entry
                  refine .done _ hroute ((Store.applyAll_append _ _ db).trans ?_)
                  exact congrArg (Option.bind · _) hmiddle

/-- The error of a decision on the rows it has read, should it not succeed. -/
def refusalOf (env : Env) (db : Database) (request : WorkflowRequest) (exec : RequestStep)
    (user : User) (outcome : String) (context : Option Dict) : EngineError :=
  match rbacError db user exec with
  | some error => error
  | none => routeError env request outcome (nextStepOf env db request outcome context)

/-- The tasks of a decision on the rows it has read, whether or not it succeeds. -/
def tasksOf (env : Env) (db : Database) (request : WorkflowRequest) (exec : RequestStep)
    (user : User) (outcome : String) (context : Option Dict) : List Task :=
  match rbacError db user exec with
  | some _ => []
  | none => routeTasks env db request (nextStepOf env db request outcome context)

/-- A decision executes its plan. -/
theorem executes_closeAndRoute :
    Executes db (plan env db request exec user outcome context)
      (refusalOf env db request exec user outcome context)
      (tasksOf env db request exec user outcome context)
      ((closeAndRoute env request exec user outcome context).run (Session.begin db)) := by
  have hentered := run_enforceRbac user exec (Session.begin db)
  rw [refusalOf, tasksOf]
  cases hrbac : rbacError db user exec with
  | some error =>
      simp only [Session.begin, hrbac] at hentered
      rw [closeAndRoute, Session.begin, run_bind_error _ hentered]
      exact .raised _ (by simp [plan, hrbac]) rfl
  | none =>
      simp only [Session.begin, hrbac] at hentered
      have hplan : plan env db request exec user outcome context =
          routeWrites env request exec user outcome context
            (nextStepOf env db request outcome context) := by
        simp [plan, hrbac]
      rw [closeAndRoute, Session.begin, run_bind_ok _ hentered, hplan]
      simp only [run_add_bind, run_query_bind, List.nil_append]
      cases hnext : nextStepOf env db request outcome context with
      | some nextStep =>
          rw [nextStepOf] at hnext
          rw [hnext]
          exact executes_moveTo env db request exec user outcome context nextStep
      | none =>
          rw [nextStepOf] at hnext
          rw [hnext]
          exact executes_finalize env db request exec user outcome context

end Route

/-- A decision whose plan the database accepts runs to its end, having written
just the plan. -/
theorem run_closeAndRoute_of_some {env : Env} {db db' : Database} {request : WorkflowRequest}
    {exec : RequestStep} {user : User} {outcome : String} {context : Option Dict}
    {writes : List Write} (hplan : plan env db request exec user outcome context = some writes)
    (happly : Store.applyAll writes db = some db') :
    ∃ value tasks, (closeAndRoute env request exec user outcome context).run (Session.begin db) =
      (.ok value, ⟨db, db', writes, [], tasks⟩) := by
  have hexecutes := executes_closeAndRoute env db request exec user outcome context
  rw [hplan] at hexecutes
  generalize (closeAndRoute env request exec user outcome context).run _ = finished at hexecutes ⊢
  cases hexecutes with
  | done value hplanned happlied =>
      obtain rfl := Option.some.inj hplanned
      obtain rfl := Option.some.inj (happlied.symm.trans happly)
      exact ⟨value, _, rfl⟩
  | raised session hnone =>
      rw [Option.bind_some, happly] at hnone
      cases hnone

/-- A decision without a plan, or with one the database refuses, raises. -/
theorem run_closeAndRoute_of_none {env : Env} {db : Database} {request : WorkflowRequest}
    {exec : RequestStep} {user : User} {outcome : String} {context : Option Dict}
    (hnone : (plan env db request exec user outcome context).bind (Store.applyAll · db) = none) :
    ∃ error session, (closeAndRoute env request exec user outcome context).run (Session.begin db) =
      (.error error, session) := by
  have hexecutes := executes_closeAndRoute env db request exec user outcome context
  generalize (closeAndRoute env request exec user outcome context).run _ = finished at hexecutes ⊢
  cases hexecutes with
  | done value hplanned happly =>
      rw [hplanned, Option.bind_some, happly] at hnone
      cases hnone
  | raised session _ => exact ⟨_, session, rfl⟩

/-! ## The two reads -/

/-- A decision that reads its request and the open execution goes on with them. -/
theorem run_processStep_of_read {env : Env} {db : Database} {requestId : Uuid} (user : User)
    (outcome : String) (context : Option Dict) {request : WorkflowRequest} {exec : RequestStep}
    (hrequest : db.request? requestId = some request)
    (hexec : openExecution env.executionOrder db requestId request.currentStepId = some exec) :
    (processStep env requestId user outcome context).run (Session.begin db) =
      (closeAndRoute env request exec user outcome context).run (Session.begin db) := by
  simp [processStep, readRequest, readOpenExecution, Session.begin, hrequest, hexec]

/-- The error of a decision, should it not succeed. -/
def decisionError (env : Env) (db : Database) (requestId : Uuid) (user : User) (outcome : String)
    (context : Option Dict) : EngineError :=
  match db.request? requestId with
  | none => .requestNotFound requestId
  | some request =>
      match openExecution env.executionOrder db requestId request.currentStepId with
      | none => .noPendingExecution
      | some exec => refusalOf env db request exec user outcome context

/-- The tasks of a decision, whether or not it succeeds. -/
def decisionTasks (env : Env) (db : Database) (requestId : Uuid) (user : User) (outcome : String)
    (context : Option Dict) : List Task :=
  match db.request? requestId with
  | none => []
  | some request =>
      match openExecution env.executionOrder db requestId request.currentStepId with
      | none => []
      | some exec => tasksOf env db request exec user outcome context

/-- Otherwise it raises. -/
theorem run_processStep_of_unread {env : Env} {db : Database} {requestId : Uuid} (user : User)
    (outcome : String) (context : Option Dict)
    (hnone : ((db.request? requestId).bind fun request =>
      openExecution env.executionOrder db requestId request.currentStepId) = none) :
    (processStep env requestId user outcome context).run (Session.begin db) =
        (.error (decisionError env db requestId user outcome context), Session.begin db) ∧
      decisionTasks env db requestId user outcome context = [] := by
  rw [decisionError, decisionTasks]
  cases hrequest : db.request? requestId with
  | none =>
      refine ⟨?_, rfl⟩
      simp [processStep, readRequest, Session.begin, hrequest]
  | some request =>
      rw [hrequest, Option.bind_some] at hnone
      simp only [hnone, and_true]
      simp [processStep, readRequest, readOpenExecution, Session.begin, hrequest, hnone]

/-! ## The state a decision commits -/

/-- The state after a decision; `none` when the decision is refused. -/
def decided (env : Env) (db : Database) (requestId : Uuid) (user : User) (outcome : String)
    (context : Option Dict) : Option Database := do
  let request ← db.request? requestId
  let exec ← openExecution env.executionOrder db requestId request.currentStepId
  let writes ← plan env db request exec user outcome context
  if env.dbFails 2 then none else Store.applyAll writes db

/-- A decision with a plan can only be refused by the database. -/
theorem refusalOf_of_plan {env : Env} {db : Database} {request : WorkflowRequest}
    {exec : RequestStep} {user : User} {outcome : String} {context : Option Dict}
    (hplan : (plan env db request exec user outcome context).isSome) :
    refusalOf env db request exec user outcome context = .databaseError := by
  rw [plan] at hplan
  rw [refusalOf]
  cases hrbac : rbacError db user exec with
  | some error => simp [hrbac] at hplan
  | none =>
      rw [hrbac, Option.isSome_none, if_neg Bool.false_ne_true] at hplan
      cases hnext : nextStepOf env db request outcome context with
      | some nextStep =>
          rw [hnext, routeWrites] at hplan
          cases hdeadline : (env.utcnow 1).addHours nextStep.slaHours with
          | none => simp [hdeadline] at hplan
          | some deadline => simp [routeError, hdeadline]
      | none =>
          rw [hnext, routeWrites] at hplan
          cases hvalid : isValidTransition request.status (verdictOf outcome) with
          | false => simp [hvalid] at hplan
          | true => simp [routeError, hvalid]

/-- A decision either commits what its plan writes, or raises and leaves the state alone. It
has handed over its tasks in both cases. -/
theorem perform_processRequestStep (env : Env) (db : Database) (requestId : Uuid) (user : User)
    (outcome : String) (context : Option Dict) :
    match decided env db requestId user outcome context with
    | some db' => ∃ value,
        Tx.perform (Endpoint.processRequestStep env requestId user outcome context) db =
          ⟨.ok value, db', decisionTasks env db requestId user outcome context⟩
    | none =>
        Tx.perform (Endpoint.processRequestStep env requestId user outcome context) db =
          ⟨.error (decisionError env db requestId user outcome context), db,
            decisionTasks env db requestId user outcome context⟩ := by
  rw [Endpoint.processRequestStep]
  have huncommitted := uncommitted_processStep env requestId user outcome context
  cases hread : (db.request? requestId).bind fun request =>
      openExecution env.executionOrder db requestId request.currentStepId with
  | none =>
      obtain ⟨hrun, htasks⟩ := run_processStep_of_unread user outcome context hread
      have hnone : decided env db requestId user outcome context = none := by
        rw [Option.bind_eq_none_iff] at hread
        simp only [decided, Option.bind_eq_bind, Option.bind_eq_none_iff]
        intro request hrequest exec hexec
        rw [hread request hrequest] at hexec
        cases hexec
      rw [hnone, htasks]
      exact perform_transaction_of_raised huncommitted hrun
  | some exec =>
      obtain ⟨request, hrequest, hexec⟩ := Option.bind_eq_some_iff.mp hread
      have hrun := run_processStep_of_read user outcome context hrequest hexec
      have hexecutes := executes_closeAndRoute env db request exec user outcome context
      simp only [decided, decisionError, decisionTasks, hrequest, hexec, Option.bind_eq_bind,
        Option.bind_some]
      generalize (closeAndRoute env request exec user outcome context).run _ = finished
        at hrun hexecutes
      cases hexecutes with
      | raised session hnone htasks =>
          have hrefused : ((plan env db request exec user outcome context).bind fun writes =>
              if env.dbFails 2 = true then none else Store.applyAll writes db) = none := by
            rw [Option.bind_eq_none_iff] at hnone ⊢
            intro writes hwrites
            split
            · rfl
            · exact hnone writes hwrites
          rw [hrefused, ← htasks]
          exact perform_transaction_of_raised huncommitted hrun
      | done value hplan happly =>
          have hperform : Tx.perform (transaction (env.dbFails 2) .databaseError
              (processStep env requestId user outcome context)) db = _ :=
            perform_transaction_of_ok hrun rfl
          have hrefusal := refusalOf_of_plan (Option.isSome_of_eq_some hplan)
          rw [hperform, hrefusal, hplan, Option.bind_some]
          cases env.dbFails 2 with
          | true => rfl
          | false =>
              simp only [Bool.false_eq_true, if_false, happly]
              exact ⟨value, rfl⟩

/-- The state after a decision. -/
theorem perform_processStep (env : Env) (db : Database) (requestId : Uuid) (user : User)
    (outcome : String) (context : Option Dict) :
    (Call.processStep env requestId user outcome context).perform db =
      (decided env db requestId user outcome context).getD db := by
  have hperform := perform_processRequestStep env db requestId user outcome context
  unfold Call.perform
  cases hdecided : decided env db requestId user outcome context with
  | some db' =>
      rw [hdecided] at hperform
      obtain ⟨value, hperform⟩ := hperform
      simp [hperform]
  | none =>
      rw [hdecided] at hperform
      simp [hperform]

theorem accepted_processStep (env : Env) (db : Database) (requestId : Uuid) (user : User)
    (outcome : String) (context : Option Dict) :
    (Call.processStep env requestId user outcome context).accepted db =
      (decided env db requestId user outcome context).isSome := by
  have hperform := perform_processRequestStep env db requestId user outcome context
  unfold Call.accepted
  cases hdecided : decided env db requestId user outcome context with
  | some db' =>
      rw [hdecided] at hperform
      obtain ⟨value, hperform⟩ := hperform
      simp [hperform, Except.isOk, Except.toBool]
  | none =>
      rw [hdecided] at hperform
      simp [hperform, Except.isOk, Except.toBool]

/-- A decision by action is the decision with the derived outcome and context, or refused. -/
theorem makeDecision_cases (requestId : Uuid) (payload : Dict) :
    (∃ outcome, Endpoint.outcomeOf (Endpoint.payloadGet payload "action") = .ok outcome ∧
      ∀ env db user, (Call.makeDecision env requestId user payload).perform db =
          (Call.processStep env requestId user outcome
            (some (Endpoint.decisionContext payload))).perform db ∧
        (Call.makeDecision env requestId user payload).accepted db =
          (Call.processStep env requestId user outcome
            (some (Endpoint.decisionContext payload))).accepted db) ∨
    ((∃ error, Endpoint.outcomeOf (Endpoint.payloadGet payload "action") = .error error) ∧
      ∀ env db user, (Call.makeDecision env requestId user payload).perform db = db ∧
        (Call.makeDecision env requestId user payload).accepted db = false) := by
  cases houtcome : Endpoint.outcomeOf (Endpoint.payloadGet payload "action") with
  | ok outcome =>
      refine .inl ⟨outcome, rfl, fun env db user => ?_⟩
      simp only [Call.perform, Call.accepted, Endpoint.makeDecision, houtcome, and_self]
  | error error =>
      refine .inr ⟨⟨error, rfl⟩, fun env db user => ?_⟩
      simp only [Call.perform, Call.accepted, Endpoint.makeDecision, houtcome]
      exact ⟨rfl, rfl⟩

end WorkflowEngine

end WorkflowPlatform
