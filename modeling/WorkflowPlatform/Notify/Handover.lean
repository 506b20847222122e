import WorkflowPlatform.Lifecycle.Reachable

/-! # Notifications and transactions

A start and a decision hand a task to the broker before their transaction is committed.
The assignees are told of work that does not exist exactly where the hand-over succeeds
and the database then refuses what was written.
-/

namespace WorkflowPlatform

open Python Tx WorkflowEngine

variable {env : Env} {db : Database} {requestId : Uuid} {user : User} {outcome : String}
  {context : Option Dict}

/-! ## Tasks for the work there is -/

/-- The executions a call has opened. -/
def openedSteps (db db' : Database) : List RequestStep :=
  db'.requestSteps.drop db.requestSteps.length

/-- A task that tells the assignees of an execution. -/
def Announces (db : Database) (task : Task) (exec : RequestStep) : Prop :=
  ∃ request ∈ db.workflowRequests, ∃ workflow ∈ db.workflows, ∃ step ∈ db.workflowSteps,
    ∃ deadline, request.id = exec.requestId ∧ workflow.id = request.workflowId ∧
      step.id = exec.stepId ∧ exec.deadline = some deadline ∧
      task = .notifyNewAssignment step.id request.id workflow.name step.name deadline

/-- A call that raises has told nobody. One that returns has told, if the broker was there, of
just what it opened. -/
def Consistent (env : Env) (db : Database)
    (finished : Tx.Finished Database Task EngineError WorkflowRequest) : Prop :=
  match finished.result with
  | .error _ => finished.enqueued = []
  | .ok _ =>
      if env.brokerFails 0 then finished.enqueued = []
      else List.Forall₂ (Announces finished.state) finished.enqueued
        (openedSteps db finished.state)

/-! ## Hand-overs -/

/-- A start that comes to its last statement, at which the broker is there. -/
structure StartHandsOver (env : Env) (db : Database) (workflowId : Uuid) (data : Dict) : Prop where
  active : (activeWorkflow db workflowId).isSome
  inserted : env.dbFails 0 = false ∧ Json.encodesFields data = true
  timed : ∃ first, firstStep env.stepOrder db workflowId = some first ∧
    ((env.utcnow 0).addHours first.slaHours).isSome
  audited : env.dbFails 1 = false
  broker : env.brokerFails 0 = false

/-- A permitted decision that leads to a next step, while the broker is there. -/
def DecisionHandsOver (env : Env) (db : Database) (requestId : Uuid) (user : User)
    (outcome : String) (context : Option Dict) : Prop :=
  ∃ request exec nextStep, db.request? requestId = some request ∧
    openExecution env.executionOrder db requestId request.currentStepId = some exec ∧
    rbacError db user exec = none ∧
    nextStepOf env db request outcome context = some nextStep ∧
    ((env.utcnow 1).addHours nextStep.slaHours).isSome ∧ env.brokerFails 0 = false

/-- After the hand-over of a decision its flush or the commit fails. The flush fails, too, for
an outcome that is no status and a context that cannot be stored. -/
def DecisionRefused (env : Env) (outcome : String) (context : Option Dict) : Prop :=
  env.dbFails 1 = true ∨ env.dbFails 2 = true ∨ StepStatus.ofValue? outcome = none ∨
    env.stores context = false

theorem startHandsOver_iff {workflowId : Uuid} {data : Dict} :
    StartHandsOver env db workflowId data ↔ ∃ workflow first deadline,
      startable env db workflowId data = .ok (workflow, first, deadline) := by
  simp only [startable_eq_ok_iff]
  constructor
  · rintro ⟨hactive, hinserted, ⟨first, hfirst, hdeadline⟩, haudited, hbroker⟩
    obtain ⟨workflow, hworkflow⟩ := Option.isSome_iff_exists.mp hactive
    obtain ⟨deadline, hdeadline⟩ := Option.isSome_iff_exists.mp hdeadline
    exact ⟨workflow, first, deadline, hworkflow, hinserted, hfirst, hdeadline, haudited, hbroker⟩
  · rintro ⟨workflow, first, deadline, hworkflow, hinserted, hfirst, hdeadline, haudited, hbroker⟩
    exact ⟨Option.isSome_of_eq_some hworkflow, hinserted,
      ⟨first, hfirst, Option.isSome_of_eq_some hdeadline⟩, haudited, hbroker⟩

/-- A decision has tasks exactly if it hands over. -/
theorem decisionTasks_eq_nil_iff (hdb : WellFormed db) :
    decisionTasks env db requestId user outcome context = [] ↔
      ¬DecisionHandsOver env db requestId user outcome context := by
  constructor
  · rintro hnil ⟨request, exec, nextStep, hrequest, hexec, hrbac, hnext, hdeadline, hbroker⟩
    obtain ⟨deadline, hdeadline⟩ := Option.isSome_iff_exists.mp hdeadline
    obtain ⟨workflow, hfound⟩ :=
      hdb.workflow?_of_request (hdb.request?_eq_some_iff.mp hrequest).1
    simp [decisionTasks, hrequest, hexec, tasksOf, hrbac, hnext, routeTasks, hdeadline, told,
      hbroker, hfound] at hnil
  · intro hkeeps
    by_contra htasks
    apply hkeeps
    rw [decisionTasks] at htasks
    split at htasks
    · exact absurd rfl htasks
    next request hrequest =>
    split at htasks
    · exact absurd rfl htasks
    next exec hexec =>
    rw [tasksOf] at htasks
    split at htasks
    · exact absurd rfl htasks
    next hrbac =>
    cases hnext : nextStepOf env db request outcome context with
    | none => simp [hnext, routeTasks] at htasks
    | some nextStep =>
        cases hdeadline : (env.utcnow 1).addHours nextStep.slaHours with
        | none => simp [hnext, routeTasks, hdeadline] at htasks
        | some deadline =>
            have hbroker : env.brokerFails 0 = false := by
              by_contra hfails
              simp [hnext, routeTasks, hdeadline, told, hfails] at htasks
            exact ⟨request, exec, nextStep, hrequest, hexec, hrbac, hnext,
              Option.isSome_of_eq_some hdeadline, hbroker⟩

/-! ## Starts -/

theorem openedSteps_startedAt (env : Env) (db : Database) (workflowId requesterId : Uuid)
    (data : Dict) (first : WorkflowStep) (deadline : DateTime) :
    openedSteps db (startedAt env db workflowId requesterId data first deadline) =
      [executionRow db.nextId first.id (env.utcnow 0) deadline (db.nextId + 2)] := by
  rw [openedSteps, startedAt, List.drop_left]

theorem consistent_start_iff (hdb : WellFormed db) (env : Env) (workflowId requesterId : Uuid)
    (data : Dict) :
    Consistent env db (Tx.perform (Endpoint.startWorkflow env workflowId requesterId data) db) ↔
      ¬(StartHandsOver env db workflowId data ∧ env.dbFails 2 = true) := by
  have hfinished := finished_startWorkflow env workflowId requesterId data
    fun request hrequest => (hdb.request_fresh request hrequest).ne
  rw [startHandsOver_iff, hfinished]
  cases hstartable : startable env db workflowId data with
  | error error => simp [Consistent]
  | ok found =>
      obtain ⟨workflow, first, deadline⟩ := found
      cases hcommit : env.dbFails 2 with
      | true => simp [Consistent]
      | false =>
          obtain ⟨hworkflow, -, hfirst, -, -, hbroker⟩ := startable_eq_ok_iff.mp hstartable
          obtain ⟨hstored, hid, -⟩ := activeWorkflow_spec hworkflow
          simp only [Bool.false_eq_true, if_false, and_false, not_false_eq_true, iff_true,
            Consistent, hbroker, openedSteps_startedAt]
          refine .cons ?_ .nil
          exact ⟨_, List.mem_append_right _ List.mem_cons_self, workflow, hstored, first,
            (firstStep_spec hfirst).1, deadline, rfl, hid, rfl, rfl, rfl⟩

/-! ## Decisions -/

section Decisions

variable {request : WorkflowRequest} {exec : RequestStep} {status : Option StepStatus}

theorem length_closedSteps (env : Env) (db : Database) (exec : RequestStep) (user : User)
    (outcome : String) (context : Option Dict) (status : Option StepStatus) :
    (closedSteps env db exec user outcome context status).length = db.requestSteps.length :=
  List.length_map _

theorem openedSteps_movedOn (env : Env) (db : Database) (request : WorkflowRequest)
    (exec : RequestStep) (user : User) (outcome : String) (context : Option Dict)
    (status : Option StepStatus) (nextStep : WorkflowStep) (deadline : DateTime) :
    openedSteps db (movedOn env db request exec user outcome context status nextStep deadline) =
      [executionRow request.id nextStep.id (env.utcnow 1) deadline db.nextId] := by
  rw [openedSteps, movedOn, ← length_closedSteps env db exec user outcome context status,
    List.drop_left]

theorem openedSteps_completed (env : Env) (db : Database) (request : WorkflowRequest)
    (exec : RequestStep) (user : User) (outcome : String) (context : Option Dict)
    (status : Option StepStatus) :
    openedSteps db (completed env db request exec user outcome context status) = [] := by
  rw [openedSteps, completed, ← length_closedSteps env db exec user outcome context status,
    List.drop_length]

/-- The tasks of an accepted decision are those for the step it leads to. -/
theorem decisionTasks_of_accepted
    (haccepted : Accepted env db requestId user outcome context request exec status) :
    decisionTasks env db requestId user outcome context =
      routeTasks env db request (nextStepOf env db request outcome context) := by
  simp [decisionTasks, haccepted.request_read, haccepted.execution_open, tasksOf,
    haccepted.permitted]

/-- A decision that commits has told of the execution it opened, or of nothing. -/
theorem consistent_routed (hdb : WellFormed db) {db' : Database}
    (haccepted : Accepted env db requestId user outcome context request exec status)
    (hrouted : Routed env db user outcome context request exec status db')
    (value : WorkflowRequest) :
    Consistent env db ⟨.ok value, db', decisionTasks env db requestId user outcome context⟩ := by
  obtain ⟨hstored, -⟩ := hdb.request?_eq_some_iff.mp haccepted.request_read
  rw [decisionTasks_of_accepted haccepted]
  cases hrouted with
  | moved nextStep deadline hnext hdeadline =>
      have hstep := nextStepOf_mem hnext
      simp only [hnext, routeTasks, hdeadline, told, Consistent, openedSteps_movedOn]
      cases hbroker : env.brokerFails 0 with
      -- the failure of the broker is caught and logged
      | true => simp
      | false =>
          obtain ⟨workflow, hfound⟩ := hdb.workflow?_of_request hstored
          have hid : workflow.id = request.workflowId := by simpa using List.find?_some hfound
          simp only [hfound, Bool.false_eq_true, if_false, Option.map_some, Option.toList_some]
          refine .cons ?_ .nil
          exact ⟨_, Keyed.mem_update.mpr (.inl ⟨request, hstored, rfl, rfl⟩), workflow,
            List.mem_of_find?_eq_some hfound, nextStep, hstep, deadline, rfl, hid, rfl, rfl, rfl⟩
  | finished hnext haudited hvalid =>
      simp [hnext, routeTasks, Consistent, openedSteps_completed]

theorem DecisionRefused.decided_eq_none (hrefused : DecisionRefused env outcome context) :
    decided env db requestId user outcome context = none := by
  rw [Option.eq_none_iff_forall_ne_some]
  intro db' hdecided
  obtain ⟨request, exec, status, haccepted, -⟩ := decided_iff.mp hdecided
  obtain ⟨hnamed, hstores⟩ := haccepted.stored
  rcases hrefused with haudited | hcommitted | hnone | hunstored
  · rw [haccepted.audited] at haudited
    cases haudited
  · rw [haccepted.committed] at hcommitted
    cases hcommitted
  · rw [hnone] at hnamed
    cases hnamed
  · rw [hunstored] at hstores
    cases hstores

/-- A decision that has handed over commits unless the database refuses it. -/
theorem refused_of_handsOver (hhands : DecisionHandsOver env db requestId user outcome context)
    (hnone : decided env db requestId user outcome context = none) :
    DecisionRefused env outcome context := by
  obtain ⟨request, exec, nextStep, hrequest, hexec, hrbac, hnext, hdeadline, -⟩ := hhands
  obtain ⟨deadline, hdeadline⟩ := Option.isSome_iff_exists.mp hdeadline
  by_contra hkept
  simp only [DecisionRefused, not_or, Bool.not_eq_true, Bool.not_eq_false] at hkept
  obtain ⟨haudited, hcommitted, hvalue, hstores⟩ := hkept
  obtain ⟨status, hstatus⟩ :=
    exists_storedStatus exec user (Option.isSome_iff_ne_none.mpr hvalue) hstores
  have hdecided := decided_iff.mpr ⟨request, exec, status,
    ⟨hrequest, hexec, hrbac, hstatus, haudited, hcommitted⟩,
    .moved nextStep deadline hnext hdeadline⟩
  rw [hnone] at hdecided
  cases hdecided

theorem consistent_decision_iff (hdb : WellFormed db) (env : Env) (requestId : Uuid) (user : User)
    (outcome : String) (context : Option Dict) :
    Consistent env db
        (Tx.perform (Endpoint.processRequestStep env requestId user outcome context) db) ↔
      ¬(DecisionHandsOver env db requestId user outcome context ∧
        DecisionRefused env outcome context) := by
  have hperform := perform_processRequestStep env db requestId user outcome context
  cases hdecided : decided env db requestId user outcome context with
  | none =>
      -- past the hand-over only the database can still refuse
      rw [hdecided] at hperform
      rw [hperform, Consistent, decisionTasks_eq_nil_iff hdb]
      exact not_congr ⟨fun hhands => ⟨hhands, refused_of_handsOver hhands hdecided⟩, And.left⟩
  | some db' =>
      rw [hdecided] at hperform
      obtain ⟨value, hperform⟩ := hperform
      obtain ⟨request, exec, status, haccepted, hrouted⟩ := decided_iff.mp hdecided
      rw [hperform]
      apply iff_of_true (consistent_routed hdb haccepted hrouted value)
      intro hboth
      rw [hboth.2.decided_eq_none] at hdecided
      cases hdecided

end Decisions

/-! ## Both calls -/

namespace Sample

/-- The first review may be done with, which is no status of an execution. -/
def doneWith : WorkflowCreate := twoReviews [⟨1, some 2, "DONE", none⟩]

/-- The state in which a request waits for its first review. -/
def underReview : Database := runCalls Database.empty (opening doneWith [])

theorem underReview_reachable : Reachable underReview := ⟨opening doneWith [], rfl⟩

end Sample

end WorkflowPlatform
