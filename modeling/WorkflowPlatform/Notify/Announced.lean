import WorkflowPlatform.Foundation.Outputs
import WorkflowPlatform.Notify.Handover
import WorkflowPlatform.Service.Accountability

/-! # Work that is announced

Over a whole run the assignment tasks that the broker got stand for the executions there
are, one for one and in the order they were opened, exactly when no call of the run was
refused by the database after it had handed its task over.
-/

namespace WorkflowPlatform

open Python Tx WorkflowEngine

variable {env : Env} {db db' : Database} {requestId : Uuid} {user : User} {outcome : String}
  {context : Option Dict} {call : Call}

/-! ## The tasks of a call -/

/-- The tasks a call hands to the broker. -/
def Call.enqueued (db : Database) : Call → List Task
  | createWorkflow env payload creatorId =>
      (Tx.perform (WorkflowService.createWorkflow env payload creatorId) db).enqueued
  | deleteWorkflow env workflowId =>
      (Tx.perform (WorkflowService.deleteWorkflow env workflowId) db).enqueued
  | startWorkflow env workflowId requesterId data =>
      (Tx.perform (Endpoint.startWorkflow env workflowId requesterId data) db).enqueued
  | processStep env requestId user outcome context =>
      (Tx.perform (Endpoint.processRequestStep env requestId user outcome context) db).enqueued
  | makeDecision env requestId user payload =>
      (Tx.perform (Endpoint.makeDecision env requestId user payload) db).enqueued
  | scanForBreaches env => (Tx.perform (SLAMonitor.scanForBreaches env) db).enqueued

def Task.isAssignment : Task → Bool
  | notifyNewAssignment _ _ _ _ _ => true
  | sendSlaBreachEmail _ _ _ _ _ => false

/-- The assignments among them. -/
def Call.assignments (db : Database) (call : Call) : List Task :=
  (call.enqueued db).filter (·.isAssignment)

/-- The database refuses what a call has written when its task is handed over already. -/
def RefusedLate (db : Database) : Call → Prop
  | .startWorkflow env workflowId _ data =>
      StartHandsOver env db workflowId data ∧ env.dbFails 2 = true
  | .processStep env requestId user outcome context =>
      DecisionHandsOver env db requestId user outcome context ∧
        DecisionRefused env outcome context
  | .makeDecision env requestId user payload =>
      ∃ outcome, Endpoint.outcomeOf (Endpoint.payloadGet payload "action") = .ok outcome ∧
        DecisionHandsOver env db requestId user outcome
          (some (Endpoint.decisionContext payload)) ∧
        DecisionRefused env outcome (some (Endpoint.decisionContext payload))
  | _ => False

theorem silent_createSteps (env : Env) (workflowId : Uuid) (steps : List WorkflowStepCreate) :
    ∀ trip stepsMap, Silent (WorkflowService.createSteps env workflowId trip stepsMap steps) := by
  induction steps with
  | nil => exact fun _ _ => Silent.pure _
  | cons stepData rest ih =>
      exact fun trip stepsMap => (Silent.query _).bind fun _ =>
        (Silent.add _).bind fun _ => (Silent.flush _ _).bind fun _ => ih _ _

/-- Definitions are stored without telling anyone. -/
theorem silent_createWorkflow (env : Env) (payload : WorkflowCreate) (creatorId : Uuid) :
    Silent (WorkflowService.createWorkflow env payload creatorId) := by
  refine (Silent.query _).bind fun _ => (Silent.add _).bind fun _ =>
    (Silent.flush _ _).bind fun _ => (silent_createSteps _ _ _ _ _).bind fun stepsMap =>
    Silent.bind ?_ fun _ => (Silent.commit _ _).bind fun _ => Silent.pure _
  intro session
  rw [WorkflowService.run_createTransitions]

theorem silent_deleteWorkflow (env : Env) (workflowId : Uuid) :
    Silent (WorkflowService.deleteWorkflow env workflowId) :=
  ((Silent.query _).bind fun _ => Silent.orRaise _ _).bind fun _ =>
    (Silent.add _).bind fun _ => Silent.commit _ _

/-- Scans send alerts only. -/
theorem assignments_scanForBreaches (env : Env) (db : Database) :
    (Call.scanForBreaches env).assignments db = [] := by
  have halerts : ∀ items, (SLAMonitor.alertsFor db items).filter (·.isAssignment) = [] := by
    intro items
    apply List.filter_eq_nil_iff.mpr
    intro task htask
    obtain ⟨item, -, halert⟩ := List.mem_filterMap.mp htask
    obtain ⟨deadline, -, halert⟩ := Option.bind_eq_some_iff.mp halert
    simp only [SLAMonitor.breachAlert, Option.bind_eq_bind, Option.bind_eq_some_iff,
      Option.pure_def, Option.some.injEq] at halert
    obtain ⟨_, -, _, -, _, -, rfl⟩ := halert
    simp [Task.isAssignment]
  rw [Call.assignments, Call.enqueued, SLAMonitor.perform_scan]
  split
  · exact halerts _
  · exact halerts _

theorem told_isAssignment {request : WorkflowRequest} {nextStep : WorkflowStep}
    {deadline : DateTime} {task : Task} (htask : task ∈ told env db request nextStep deadline) :
    task.isAssignment = true := by
  rw [told] at htask
  split at htask
  · cases htask
  · obtain ⟨workflow, -, rfl⟩ := Option.map_eq_some_iff.mp (Option.mem_toList.mp htask)
    rfl

theorem routeTasks_isAssignment {request : WorkflowRequest} {next : Option WorkflowStep}
    {task : Task} (htask : task ∈ routeTasks env db request next) : task.isAssignment = true := by
  cases next with
  | none => cases htask
  | some nextStep =>
      rw [routeTasks] at htask
      split at htask
      · exact told_isAssignment htask
      · cases htask

/-- Decisions send assignments only. -/
theorem decisionTasks_assignments (env : Env) (db : Database) (requestId : Uuid) (user : User)
    (outcome : String) (context : Option Dict) :
    (decisionTasks env db requestId user outcome context).filter (·.isAssignment) =
      decisionTasks env db requestId user outcome context := by
  apply List.filter_eq_self.mpr
  intro task htask
  rw [decisionTasks] at htask
  split at htask
  · cases htask
  next request _ =>
  split at htask
  · cases htask
  next exec _ =>
  rw [tasksOf] at htask
  split at htask
  · cases htask
  · exact routeTasks_isAssignment htask

/-! ## The rows a call adds -/

/-- A task tells the assignees of the execution with an identifier. -/
def Tells (db : Database) (task : Task) (execId : Uuid) : Prop :=
  ∃ exec ∈ db.requestSteps, exec.id = execId ∧ Announces db task exec

theorem execution_ids_closedSteps (env : Env) (db : Database) (exec : RequestStep) (user : User)
    (outcome : String) (context : Option Dict) (status : Option StepStatus) :
    (closedSteps env db exec user outcome context status).map (·.id) =
      db.requestSteps.map (·.id) := by
  apply Keyed.map_key_update
  intro row
  rfl

/-- The executions stay where they are in their table, and new ones follow them. -/
theorem execution_ids_perform (hdb : WellFormed db) (call : Call) :
    (call.perform db).requestSteps.map (·.id) =
      db.requestSteps.map (·.id) ++ (openedSteps db (call.perform db)).map (·.id) := by
  have heffect := hdb.effect_perform call
  generalize call.perform db = db' at heffect ⊢
  have hkept : (db'.requestSteps.take db.requestSteps.length).map (·.id) =
      db.requestSteps.map (·.id) := by
    cases heffect with
    | refused => rw [List.take_length]
    | defined => exact congrArg (List.map _) List.take_length
    | deleted env workflowId db' hdeleted =>
        obtain ⟨-, -, rfl⟩ := Database.deleteWorkflow?_eq_some hdeleted
        exact congrArg (List.map _) List.take_length
    | started => rw [startedAt, List.take_left]
    | decided _ _ user outcome context request exec status _ _ _ _ _ hrouted =>
        have hlength := length_closedSteps call.env db exec user outcome context status
        have hids := execution_ids_closedSteps call.env db exec user outcome context status
        cases hrouted with
        | moved => rw [movedOn, ← hlength, List.take_left, hids]
        | finished => rw [completed, ← hlength, List.take_length, hids]
    | scanned env =>
        obtain ⟨items, hscanned, -⟩ := scanned_eq_escalated hdb env
        rw [hscanned, requestSteps_escalated, ← List.map_take, List.take_length, List.map_map]
        apply List.map_congr_left
        intro exec _
        rw [Function.comp_apply]
        split <;> rfl
  rw [← hkept, ← List.map_append, openedSteps, List.take_append_drop]

/-- The workflow of a request stays stored. -/
theorem workflow_of_request_perform (hdb : WellFormed db) {request : WorkflowRequest}
    (hrequest : request ∈ db.workflowRequests) {workflow : Workflow}
    (hworkflow : workflow ∈ db.workflows) (hid : workflow.id = request.workflowId)
    (call : Call) : workflow ∈ (call.perform db).workflows := by
  have heffect := hdb.effect_perform call
  generalize call.perform db = db' at heffect ⊢
  cases heffect with
  | refused => exact hworkflow
  | defined => exact List.mem_append_left _ hworkflow
  | deleted env workflowId db' hdeleted =>
      obtain ⟨hunused, -, rfl⟩ := Database.deleteWorkflow?_eq_some hdeleted
      apply List.mem_filter.mpr
      refine ⟨hworkflow, ?_⟩
      rw [hid]
      exact decide_eq_true (hunused request hrequest)
  | started => exact hworkflow
  | decided _ _ _ _ _ _ _ _ _ _ _ _ haccepted hrouted =>
      rw [(sameDefinitions_routed hrouted).workflows]
      exact hworkflow
  | scanned env =>
      obtain ⟨items, hscanned, -⟩ := scanned_eq_escalated hdb env
      rw [hscanned]
      apply SLAMonitor.escalated_induction (fun db => workflow ∈ db.workflows) _ hworkflow
      intro db item _ hstored
      exact hstored

/-- The rows of executions, requests and their definitions that a task tells of stay. -/
theorem tells_perform (hdb : WellFormed db) (call : Call) {task : Task} {execId : Uuid}
    (htells : Tells db task execId) : Tells (call.perform db) task execId := by
  obtain ⟨exec, hexec, hid, request, hrequest, workflow, hworkflow, step, hstep, deadline,
    hrequestId, hworkflowId, hstepId, hdeadline, htask⟩ := htells
  have hcontinues := continues_perform hdb call
  obtain ⟨exec', hexec', hfollows⟩ := hcontinues.executions exec hexec
  obtain ⟨request', hrequest', hcarries⟩ := hcontinues.requests request hrequest
  have hworkflow' := workflow_of_request_perform hdb hrequest hworkflow hworkflowId call
  have hstep' : step ∈ (call.perform db).workflowSteps := by
    have hfound := step?_perform hdb hexec call
    rw [hdb.step?_eq_some_iff.mpr ⟨hstep, hstepId⟩] at hfound
    exact ((wellFormed_perform hdb call).step?_eq_some_iff.mp hfound).1
  refine ⟨exec', hexec', hfollows.id.trans hid, request', hrequest', workflow, hworkflow', step,
    hstep', deadline, ?_, ?_, ?_, ?_, ?_⟩
  · rw [hcarries.id, hrequestId, hfollows.requestId]
  · rw [hworkflowId, hcarries.workflowId]
  · rw [hstepId, hfollows.stepId]
  · rw [hfollows.deadline, hdeadline]
  · rw [htask, hcarries.id]

/-! ## The tasks of one call -/

theorem openedSteps_of_same (hsame : db'.requestSteps = db.requestSteps) :
    openedSteps db db' = [] := by
  rw [openedSteps, hsame, List.drop_length]

/-- Tasks that announce executions are assignments. -/
theorem assignments_of_announced {tasks : List Task} {execs : List RequestStep}
    (htasks : List.Forall₂ (Announces db) tasks execs) :
    tasks.filter (·.isAssignment) = tasks := by
  induction htasks with
  | nil => rfl
  | cons hannounces _ ih =>
      obtain ⟨_, _, _, _, _, _, _, _, _, _, _, rfl⟩ := hannounces
      rw [List.filter_cons_of_pos rfl, ih]

theorem Consistent.announced
    {finished : Tx.Finished Database Task EngineError WorkflowRequest}
    (hconsistent : Consistent env db finished) (hbroker : env.brokerFails 0 = false)
    (hraised : ∀ error, finished.result = .error error → finished.state = db) :
    List.Forall₂ (Announces finished.state) (finished.enqueued.filter (·.isAssignment))
      (openedSteps db finished.state) := by
  rw [Consistent] at hconsistent
  cases hresult : finished.result with
  | error error =>
      rw [hresult] at hconsistent
      rw [hconsistent, hraised error hresult, openedSteps_of_same rfl]
      exact .nil
  | ok value =>
      rw [hresult] at hconsistent
      simp only [hbroker, Bool.false_eq_true, if_false] at hconsistent
      rw [assignments_of_announced hconsistent]
      exact hconsistent

/-- A decision by action sends the tasks of the decision with the derived outcome. -/
theorem assignments_makeDecision (payload : Dict)
    (houtcome : Endpoint.outcomeOf (Endpoint.payloadGet payload "action") = .ok outcome) :
    (Call.makeDecision env requestId user payload).assignments db =
      (Call.processStep env requestId user outcome
        (some (Endpoint.decisionContext payload))).assignments db := by
  simp only [Call.assignments, Call.enqueued, Endpoint.makeDecision, houtcome]

theorem announced_processStep (hdb : WellFormed db) (hbroker : env.brokerFails 0 = false)
    (hkept : ¬RefusedLate db (.processStep env requestId user outcome context)) :
    List.Forall₂ (Announces ((Call.processStep env requestId user outcome context).perform db))
      ((Call.processStep env requestId user outcome context).assignments db)
      (openedSteps db ((Call.processStep env requestId user outcome context).perform db)) := by
  have hperform := perform_processRequestStep env db requestId user outcome context
  apply ((consistent_decision_iff hdb env requestId user outcome context).mpr hkept).announced
    hbroker
  intro error hresult
  cases hdecided : decided env db requestId user outcome context with
  | none =>
      rw [hdecided] at hperform
      rw [hperform]
  | some db' =>
      rw [hdecided] at hperform
      obtain ⟨value, hperform⟩ := hperform
      rw [hperform] at hresult
      cases hresult

theorem announced_startWorkflow (hdb : WellFormed db) {workflowId requesterId : Uuid} {data : Dict}
    (hbroker : env.brokerFails 0 = false)
    (hkept : ¬RefusedLate db (.startWorkflow env workflowId requesterId data)) :
    List.Forall₂ (Announces ((Call.startWorkflow env workflowId requesterId data).perform db))
      ((Call.startWorkflow env workflowId requesterId data).assignments db)
      (openedSteps db ((Call.startWorkflow env workflowId requesterId data).perform db)) := by
  have hfinished := finished_startWorkflow env workflowId requesterId data
    fun request hrequest => (hdb.request_fresh request hrequest).ne
  apply ((consistent_start_iff hdb env workflowId requesterId data).mpr hkept).announced hbroker
  intro error hresult
  rw [hfinished] at hresult ⊢
  cases hstartable : startable env db workflowId data with
  | error raised => rfl
  | ok found =>
      cases hcommit : env.dbFails 2 with
      | true => simp
      | false => simp [hstartable, hcommit] at hresult

/-- Unless the database refuses a call late, its assignments stand for what it opened. -/
theorem announced_perform (hdb : WellFormed db) (hbroker : call.env.brokerFails 0 = false)
    (hkept : ¬RefusedLate db call) :
    List.Forall₂ (Announces (call.perform db)) (call.assignments db)
      (openedSteps db (call.perform db)) := by
  cases call with
  | createWorkflow env payload creatorId =>
      have hsteps : ((Call.createWorkflow env payload creatorId).perform db).requestSteps =
          db.requestSteps := by
        rcases WorkflowService.perform_createWorkflow env payload creatorId db with
          ⟨error, -, hstate⟩ | ⟨-, hstate⟩
        · rw [Call.perform, hstate]
        · rw [Call.perform, hstate]
          rfl
      rw [openedSteps_of_same hsteps, Call.assignments, Call.enqueued,
        (silent_createWorkflow env payload creatorId).enqueued_perform]
      exact .nil
  | deleteWorkflow env workflowId =>
      have hsteps : ((Call.deleteWorkflow env workflowId).perform db).requestSteps =
          db.requestSteps := by
        rw [WorkflowService.perform_deleteWorkflow]
        split
        · rfl
        · cases hdeleted : db.deleteWorkflow? workflowId with
          | none => rfl
          | some db' =>
              obtain ⟨-, -, rfl⟩ := Database.deleteWorkflow?_eq_some hdeleted
              rfl
      rw [openedSteps_of_same hsteps, Call.assignments, Call.enqueued,
        (silent_deleteWorkflow env workflowId).enqueued_perform]
      exact .nil
  | startWorkflow env workflowId requesterId data =>
      exact announced_startWorkflow hdb hbroker hkept
  | processStep env requestId user outcome context => exact announced_processStep hdb hbroker hkept
  | makeDecision env requestId user payload =>
      rcases makeDecision_cases requestId payload with ⟨outcome, houtcome, heq⟩ |
        ⟨⟨error, houtcome⟩, heq⟩
      · rw [(heq env db user).1, assignments_makeDecision payload houtcome]
        exact announced_processStep hdb hbroker fun hlate => hkept ⟨outcome, houtcome, hlate⟩
      · rw [(heq env db user).1, openedSteps_of_same rfl]
        simp only [Call.assignments, Call.enqueued, Endpoint.makeDecision, houtcome]
        exact .nil
  | scanForBreaches env =>
      rw [assignments_scanForBreaches, perform_scanForBreaches]
      obtain ⟨items, hscanned, -⟩ := scanned_eq_escalated hdb env
      rw [openedSteps, hscanned, requestSteps_escalated, List.drop_eq_nil_of_le (by simp)]
      exact .nil

/-- A decision that is refused late has told somebody, and stores nothing. -/
theorem overtold_processStep (hdb : WellFormed db)
    (hhands : DecisionHandsOver env db requestId user outcome context)
    (hrefused : DecisionRefused env outcome context) :
    (Call.processStep env requestId user outcome context).perform db = db ∧
      (Call.processStep env requestId user outcome context).assignments db ≠ [] := by
  have hperform := perform_processRequestStep env db requestId user outcome context
  rw [hrefused.decided_eq_none] at hperform
  refine ⟨by rw [perform_processStep, hrefused.decided_eq_none]; rfl, ?_⟩
  rw [Call.assignments, Call.enqueued, hperform, decisionTasks_assignments]
  intro hnil
  exact (decisionTasks_eq_nil_iff hdb).mp hnil hhands

/-- What is refused late has told somebody, and stores nothing. -/
theorem overtold_perform (hdb : WellFormed db) (hlate : RefusedLate db call) :
    call.perform db = db ∧ call.assignments db ≠ [] := by
  cases call with
  | startWorkflow env workflowId requesterId data =>
      obtain ⟨hhands, hcommit⟩ := hlate
      obtain ⟨workflow, first, deadline, hstartable⟩ := startHandsOver_iff.mp hhands
      have hfinished := finished_startWorkflow env workflowId requesterId data
        fun request hrequest => (hdb.request_fresh request hrequest).ne
      rw [hstartable] at hfinished
      simp only [hcommit, if_true] at hfinished
      rw [Call.perform, Call.assignments, Call.enqueued, hfinished]
      exact ⟨rfl, List.cons_ne_nil _ _⟩
  | processStep => exact overtold_processStep hdb hlate.1 hlate.2
  | makeDecision env requestId user payload =>
      obtain ⟨outcome, houtcome, hhands, hrefused⟩ := hlate
      have hover := overtold_processStep hdb hhands hrefused
      rw [assignments_makeDecision payload houtcome]
      refine ⟨?_, hover.2⟩
      rcases makeDecision_cases requestId payload with ⟨_, hother, heq⟩ | ⟨⟨_, hother⟩, -⟩
      · obtain rfl := Except.ok.inj (houtcome.symm.trans hother)
        exact (heq env db user).1.trans hover.1
      · rw [houtcome] at hother
        cases hother
  | createWorkflow | deleteWorkflow | scanForBreaches => exact hlate.elim

/-! ## The tasks of a run -/

/-- The broker is there when a call hands over. -/
def Call.Reached (call : Call) : Prop := call.env.brokerFails 0 = false

theorem recorded_assignments :
    SerialRun.Recorded Call.perform Call.assignments WellFormed Call.Reached
      (fun db call => ¬RefusedLate db call) (fun db => db.requestSteps.map (·.id)) Tells where
  keeps _ call hdb := wellFormed_perform hdb call
  exact db call hdb hbroker hkept := by
    refine ⟨_, execution_ids_perform hdb call, ?_⟩
    apply (Keyed.forall₂_map_key (wellFormed_perform hdb call).execution_keys _).mpr
      (announced_perform hdb hbroker hkept)
    exact List.drop_subset _ _
  excess db call hdb _ hlate := by
    obtain ⟨hsame, htold⟩ := overtold_perform hdb (not_not.mp hlate)
    rw [hsame]
    exact Nat.lt_add_of_pos_right (List.length_pos_iff.mpr htold)
  persists _ call _ _ hdb := tells_perform hdb call

/-- Over any run in which the broker is there, the assignments it got stand for the
executions there are, one for one and in the order they were opened, exactly if the database
refuses no call that has handed its task over. -/
theorem assignments_match_work_iff (calls : List Call) (hbroker : ∀ call ∈ calls, call.Reached) :
    List.Forall₂ (Announces (runCalls Database.empty calls))
        (SerialRun.outputs Call.perform Call.assignments Database.empty calls)
        (runCalls Database.empty calls).requestSteps ↔
      SerialRun.EachStep Call.perform (fun db call => ¬RefusedLate db call) Database.empty
        calls := by
  have hwellFormed := wellFormed_runCalls wellFormed_empty calls
  rw [← Keyed.forall₂_map_key hwellFormed.execution_keys (List.Subset.refl _)]
  exact recorded_assignments.outputs_iff wellFormed_empty hbroker rfl

/-! ### Two reviews that are told of -/

namespace Sample

theorem approval_kept (db : Database) : ¬RefusedLate db approval := by
  intro hlate
  rcases hlate.2 with haudited | hcommitted | hvalue | hunstored
  · cases haudited
  · cases hcommitted
  · exact absurd hvalue (by decide)
  · exact absurd hunstored (by decide)

theorem approvedTwice_kept : SerialRun.EachStep Call.perform
    (fun db call => ¬RefusedLate db call) Database.empty approvedTwice :=
  ⟨id, fun hlate => Bool.false_ne_true hlate.2, approval_kept _, approval_kept _, trivial⟩

end Sample

theorem assignments_match_work_iff_approvedTwice :
    List.Forall₂ (Announces (runCalls Database.empty Sample.approvedTwice))
        (SerialRun.outputs Call.perform Call.assignments Database.empty Sample.approvedTwice)
        (runCalls Database.empty Sample.approvedTwice).requestSteps ∧
      (runCalls Database.empty Sample.approvedTwice).requestSteps.length = 2 := by
  refine ⟨(assignments_match_work_iff Sample.approvedTwice ?_).mpr Sample.approvedTwice_kept,
    by decide +kernel⟩
  intro call hcall
  simp only [Sample.approvedTwice, Sample.opening, List.cons_append, List.nil_append,
    List.mem_cons, List.not_mem_nil, or_false] at hcall
  rcases hcall with rfl | rfl | rfl | rfl <;> rfl

end WorkflowPlatform
