import WorkflowPlatform.Deciding.Target

/-! # The task list and the engine

The task list finds a user's work by status and completion time, the engine by the
current step of the request, and each writes the access rule out for itself. In every
reachable state both name the same executions.
-/

namespace WorkflowPlatform

open Python Tx WorkflowEngine Endpoint

/-! ## What a decision selects -/

/-- The part of `process_step` that chooses the execution to close: look the request
up, then its open execution, and check access. -/
def selectStep (env : Env) (requestId : Uuid) (user : User) :
    EngineTx (WorkflowRequest × RequestStep) := do
  let request ← readRequest requestId
  let currentExec ← readOpenExecution env requestId request
  enforceRbac user currentExec
  return (request, currentExec)

/-- The rest of `process_step`: close the execution and route the request. -/
def closeSelected (env : Env) (user : User) (outcome : String) (context : Option Dict)
    (selected : WorkflowRequest × RequestStep) : EngineTx WorkflowRequest := do
  let (request, currentExec) := selected
  add (.closeRequestStep currentExec.id (decisionOf env currentExec user outcome context))
  let nextStep ← query fun db => resolveNext env.transitionOrder db request.currentStepId outcome
    (evalContext request.requestData context)
  let request ← match nextStep with
    | some nextStep => moveTo env request nextStep
    | none => finalize env request outcome user.id
  logAction env 1 (stepAudit env user currentExec request.id outcome)
  return request

/-- A decision closes what it has selected. -/
theorem processStep_eq (env : Env) (requestId : Uuid) (user : User) (outcome : String)
    (context : Option Dict) :
    processStep env requestId user outcome context =
      selectStep env requestId user >>= closeSelected env user outcome context := by
  simp only [processStep, selectStep, closeAndRoute, Tx.bind_assoc, Tx.pure_bind]
  rfl

/-- An execution is selected when it is the open one of its request and the user
passes the access check. -/
theorem selectStep_eq_ok_iff {env : Env} {db : Database} {requestId : Uuid} {user : User}
    {request : WorkflowRequest} {exec : RequestStep} :
    (Tx.perform (selectStep env requestId user) db).result = .ok (request, exec) ↔
      db.request? requestId = some request ∧
        openExecution env.executionOrder db requestId request.currentStepId = some exec ∧
        rbacError db user exec = none := by
  simp only [Tx.perform, selectStep, readRequest, readOpenExecution, Session.begin, run_bind_assoc,
    run_query_bind]
  cases hrequest : db.request? requestId with
  | none => simp
  | some found =>
      simp only [run_orRaise_some_bind, run_bind_assoc, run_query_bind]
      cases hexec : openExecution env.executionOrder db requestId found.currentStepId with
      | none =>
          simp only [run_orRaise_none_bind, reduceCtorEq, Option.some.injEq, false_iff, not_and]
          rintro rfl
          simp [hexec]
      | some current =>
          rw [run_orRaise_some_bind, run_bind, run_enforceRbac]
          cases hrbac : rbacError db user current with
          | some error =>
              simp only [reduceCtorEq, Option.some.injEq, false_iff, not_and]
              rintro rfl hcurrent
              rw [hexec] at hcurrent
              rw [← Option.some.inj hcurrent, hrbac]
              intro hnone
              cases hnone
          | none =>
              simp only [run_pure, Except.ok.injEq, Prod.mk.injEq, Option.some.injEq]
              constructor
              · rintro ⟨rfl, rfl⟩
                exact ⟨rfl, hexec, hrbac⟩
              · rintro ⟨rfl, hcurrent, -⟩
                exact ⟨rfl, Option.some.inj (hexec.symm.trans hcurrent)⟩

variable {db : Database} {user : User} {exec : RequestStep}

/-! ## The two access rules -/

/-- The list shows a step to those whom the engine admits to it. -/
theorem rbacError_eq_none_iff {stepDef : WorkflowStep}
    (hstep : db.step? exec.stepId = some stepDef) :
    rbacError db user exec = none ↔ showsStep user stepDef = true := by
  by_cases hadmin : isAdmin user = true
  · simp [rbacError, showsStep, hadmin]
  · simp only [rbacError, hadmin, hstep, missing, showsStep, Bool.false_or, Bool.false_eq_true,
      if_false]
    cases stepDef.requiredRoleId.any (· ∉ roleIds user) <;>
      cases stepDef.requiredPermissionId.any (· ∉ permissionIds user) <;> simp

/-- The step of an open execution exists. -/
theorem step?_of_active (hdb : WellFormed db) {request : WorkflowRequest}
    {decided : List RequestStep} (hactive : Active db request decided exec) :
    ∃ stepDef, db.step? exec.stepId = some stepDef := by
  obtain ⟨stepDef, hstep, -⟩ := hdb.toWellDefined.step?_of_hasStep (hdb.hasStep_of_active hactive)
  exact ⟨stepDef, hstep⟩

/-! ## What the list shows -/

theorem taskView?_eq_some {task : TaskView} (hview : taskView? db user exec = some task) :
    task.requestId = exec.requestId ∧ task.requestStepId = exec.id ∧
      (∃ request, db.request? exec.requestId = some request) ∧
      ∃ stepDef, db.step? exec.stepId = some stepDef ∧ showsStep user stepDef = true := by
  simp only [taskView?, Option.bind_eq_bind, Option.bind_eq_some_iff,
    Option.ite_none_right_eq_some] at hview
  obtain ⟨stepDef, hstep, request, hrequest, hshown, _, -, hview⟩ := hview
  cases hview
  exact ⟨rfl, rfl, ⟨request, hrequest⟩, stepDef, hstep, hshown⟩

/-- The rows the list goes through. -/
theorem mem_pending {order : RowOrder RequestStep} :
    exec ∈ order.rows (db.requestSteps.filter fun exec =>
        exec.status = .pending ∧ exec.completedAt.isNone) ↔
      exec ∈ db.requestSteps ∧ exec.status = .pending ∧ exec.completedAt = none := by
  simp only [RowOrder.mem_rows, List.mem_filter, decide_eq_true_eq, Option.isNone_iff_eq_none]

/-- An execution nobody has decided is the open one of its request. -/
theorem active_of_undecided (hdb : WellFormed db) (hexec : exec ∈ db.requestSteps)
    (hopen : exec.completedAt = none) :
    ∃ request ∈ db.workflowRequests, request.id = exec.requestId ∧
      ∃ decided, Active db request decided exec := by
  obtain ⟨request, hrequest, hid⟩ := hdb.execution_request exec hexec
  exact ⟨request, hrequest, hid,
    active_of_open hdb hrequest (mem_openExecutions.mpr ⟨hexec, hid.symm, hopen⟩)⟩

/-- An execution is listed. -/
def Lists (tasks : List TaskView) (exec : RequestStep) : Prop :=
  ∃ task ∈ tasks, task.requestStepId = exec.id ∧ task.requestId = exec.requestId

/-- An execution is selected by a decision of its request. -/
def Selects (env : Env) (db : Database) (user : User) (exec : RequestStep) : Prop :=
  ∃ request, (Tx.perform (selectStep env exec.requestId user) db).result = .ok (request, exec)

theorem selects_of_lists (hdb : WellFormed db) {order : RowOrder RequestStep} (env : Env)
    (hexec : exec ∈ db.requestSteps) (hlists : Lists (getMyTasks order db user) exec) :
    Selects env db user exec := by
  obtain ⟨task, htask, hid, -⟩ := hlists
  obtain ⟨row, hrow, hview⟩ := List.mem_filterMap.mp htask
  obtain ⟨hmem, -, hopen⟩ := mem_pending.mp hrow
  obtain ⟨-, hid', -, stepDef, hstep, hshown⟩ := taskView?_eq_some hview
  obtain rfl := Keyed.ext hdb.execution_keys hmem hexec (hid'.symm.trans hid)
  obtain ⟨request, hrequest, howner, decided, hactive⟩ := active_of_undecided hdb hmem hopen
  refine ⟨request, selectStep_eq_ok_iff.mpr ⟨?_, ?_, (rbacError_eq_none_iff hstep).mpr hshown⟩⟩
  · exact hdb.request?_eq_some_iff.mpr ⟨hrequest, howner⟩
  · rw [← howner]
    exact WellFormed.openExecution_of_active hactive env.executionOrder

theorem lists_of_selects (hdb : WellFormed db) (order : RowOrder RequestStep) {env : Env}
    (hselects : Selects env db user exec) : Lists (getMyTasks order db user) exec := by
  obtain ⟨request, hselected⟩ := hselects
  obtain ⟨hread, hopen, hpermitted⟩ := selectStep_eq_ok_iff.mp hselected
  obtain ⟨hexec, howner, decided, hactive⟩ := hdb.active_of_openExecution hread hopen
  obtain ⟨hrequest, -⟩ := hdb.request?_eq_some_iff.mp hread
  obtain ⟨stepDef, hstep⟩ := step?_of_active hdb hactive
  obtain ⟨workflow, hworkflow⟩ := hdb.workflow?_of_request hrequest
  have hshown : showsStep user stepDef = true := (rbacError_eq_none_iff hstep).mp hpermitted
  have hview : ∃ task, taskView? db user exec = some task := by
    simp [taskView?, hstep, hread, hshown, hworkflow]
  obtain ⟨task, hview⟩ := hview
  obtain ⟨hrequestId, hid, -, -⟩ := taskView?_eq_some hview
  refine ⟨task, List.mem_filterMap.mpr ⟨exec, mem_pending.mpr ?_, hview⟩, hid, hrequestId⟩
  exact ⟨hexec, hactive.untouched.status_pending, hactive.untouched.completedAt_none⟩

/-- No request is listed twice: it has one open execution. -/
theorem requestIds_nodup (hdb : WellFormed db) (order : RowOrder RequestStep) (user : User) :
    ((getMyTasks order db user).map (·.requestId)).Nodup := by
  refine List.Nodup.sublist (Keyed.filterMap_keys_sublist (·.requestId) (·.requestId)
    (fun row task hview => (taskView?_eq_some hview).1) _) ?_
  have hrows : (order.rows (db.requestSteps.filter fun exec =>
      exec.status = .pending ∧ exec.completedAt.isNone)).Nodup := by
    refine (order.perm _).nodup_iff.mpr (List.Nodup.filter _ ?_)
    exact List.Nodup.of_map _ hdb.execution_keys
  apply (List.nodup_map_iff_inj_on hrows).mpr
  intro first hfirst second hsecond heq
  obtain ⟨hmem, -, hopen⟩ := mem_pending.mp hfirst
  obtain ⟨hmem', -, hopen'⟩ := mem_pending.mp hsecond
  obtain ⟨request, -, hid, decided, hactive⟩ := active_of_undecided hdb hmem hopen
  have hlisted : second ∈ db.openExecutions request.id :=
    mem_openExecutions.mpr ⟨hmem', heq.symm.trans hid.symm, hopen'⟩
  rw [openExecutions_of_active hactive] at hlisted
  exact (List.mem_singleton.mp hlisted).symm

/-- The task list shows an execution to a user exactly when a decision of its request
by that user selects it, and it shows every request at most once. -/
theorem task_list_agrees (hreachable : Reachable db) (order : RowOrder RequestStep) (env : Env)
    (user : User) :
    (∀ exec ∈ db.requestSteps,
      Lists (getMyTasks order db user) exec ↔ Selects env db user exec) ∧
    ((getMyTasks order db user).map (·.requestId)).Nodup := by
  have hdb := hreachable.wellFormed
  refine ⟨fun exec hexec => ⟨?_, ?_⟩, requestIds_nodup hdb order user⟩
  · exact selects_of_lists hdb env hexec
  · exact lists_of_selects hdb order

theorem task_list_agrees_review :
    (∀ exec ∈ underReview.requestSteps,
      Lists (getMyTasks .stored underReview Sample.admin) exec ↔
        Selects (.calm Sample.noon) underReview Sample.admin exec) ∧
    ((getMyTasks .stored underReview Sample.admin).map (·.requestId)).Nodup :=
  task_list_agrees ⟨Sample.opening Sample.approvals [], rfl⟩ .stored (.calm Sample.noon)
    Sample.admin

end WorkflowPlatform
