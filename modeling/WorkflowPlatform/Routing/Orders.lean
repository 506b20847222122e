import WorkflowPlatform.Lifecycle.Reachable

/-! # Routing and the order of rows

Two queries of the engine take the first row of several without saying which comes
first: the first step of a workflow, and the transitions of a step. A run does not
depend on their orders exactly when each call that could commit finds one first
step, or one target, only.
-/

namespace WorkflowPlatform

open Python WorkflowEngine

/-! ## Orders -/

/-- The same surroundings with other orders of the rows of the two queries. -/
def Env.reordered (steps : RowOrder WorkflowStep) (transitions : RowOrder StepTransition)
    (env : Env) : Env :=
  { env with stepOrder := steps, transitionOrder := transitions }

/-- The same call with other orders of the rows of the two queries. -/
def Call.reordered (steps : RowOrder WorkflowStep) (transitions : RowOrder StepTransition) :
    Call → Call
  | createWorkflow env payload creatorId =>
      createWorkflow (env.reordered steps transitions) payload creatorId
  | deleteWorkflow env workflowId => deleteWorkflow (env.reordered steps transitions) workflowId
  | startWorkflow env workflowId requesterId data =>
      startWorkflow (env.reordered steps transitions) workflowId requesterId data
  | processStep env requestId user outcome context =>
      processStep (env.reordered steps transitions) requestId user outcome context
  | makeDecision env requestId user payload =>
      makeDecision (env.reordered steps transitions) requestId user payload
  | scanForBreaches env => scanForBreaches (env.reordered steps transitions)

def SameButOrders (call call' : Call) : Prop :=
  ∃ steps transitions, call' = call.reordered steps transitions

theorem SameButOrders.refl (call : Call) : SameButOrders call call := by
  cases call <;> exact ⟨_, _, rfl⟩

/-- The steps a request was at, and the verdicts it got. -/
def course (db : Database) (requestId : Uuid) : List Uuid × List RequestStatus :=
  ((db.executions requestId).map (·.stepId),
    ((db.requestStateHistory.filter (·.requestId = requestId)).map (·.toStatus)).filter
      fun status => status = .approved ∨ status = .rejected)

/-- All through a run every request takes the same course, whatever the orders. -/
def OrderFree (calls : List Call) : Prop :=
  ∀ calls', List.Forall₂ SameButOrders calls calls' → ∀ n requestId,
    course (runCalls Database.empty (calls'.take n)) requestId =
      course (runCalls Database.empty (calls.take n)) requestId

/-! ## Settled choices -/

/-- A decision can commit where it leads: the next step has a deadline, or the
completion is written. -/
def Reaches (env : Env) : Option WorkflowStep → Prop
  | some next => ((env.utcnow 1).addHours next.slaHours).isSome
  | none => env.dbFails 0 = false

instance (env : Env) : (next : Option WorkflowStep) → Decidable (Reaches env next)
  | some next => inferInstanceAs (Decidable ((env.utcnow 1).addHours next.slaHours).isSome)
  | none => inferInstanceAs (Decidable (env.dbFails 0 = false))

/-- An enabled transition leads there. -/
def Offers (db : Database) (request : WorkflowRequest) (outcome : String) (context : Option Dict)
    (next : Option WorkflowStep) : Prop :=
  ∃ trans ∈ matchingTransitions db request.currentStepId outcome,
    enabled (evalContext request.requestData context) trans = true ∧
      trans.toStepId.bind db.step? = next

/-- Where a decision could commit, all enabled transitions lead to one target. -/
def SettledDecision (env : Env) (db : Database) (requestId : Uuid) (user : User)
    (outcome : String) (context : Option Dict) : Prop :=
  ∀ request exec status, Accepted env db requestId user outcome context request exec status →
    ∀ next other, Offers db request outcome context next → Offers db request outcome context other →
      Reaches env next → next = other

def IsFirst (workflowId : Uuid) (step : WorkflowStep) : Prop :=
  step.workflowId = workflowId ∧ step.stepOrder = 1

/-- Where a start could commit, the workflow has one step with order 1. -/
def SettledStart (env : Env) (db : Database) (workflowId : Uuid) (data : Dict) : Prop :=
  (activeWorkflow db workflowId).isSome →
    (env.dbFails 0 || !Json.encodesFields data || env.dbFails 1 || env.dbFails 2 ||
      env.brokerFails 0) = false →
    ∀ first ∈ db.workflowSteps, ∀ other ∈ db.workflowSteps, IsFirst workflowId first →
      IsFirst workflowId other → ((env.utcnow 0).addHours first.slaHours).isSome → first = other

/-- A call that leaves the database no choice. -/
def Settled (db : Database) : Call → Prop
  | .startWorkflow env workflowId _ data => SettledStart env db workflowId data
  | .processStep env requestId user outcome context =>
      SettledDecision env db requestId user outcome context
  | .makeDecision env requestId user payload =>
      ∀ outcome, Endpoint.outcomeOf (Endpoint.payloadGet payload "action") = .ok outcome →
        SettledDecision env db requestId user outcome (some (Endpoint.decisionContext payload))
  | _ => True

variable {env : Env} {db db' : Database} {requestId : Uuid} {user : User} {outcome : String}
  {context : Option Dict} {request : WorkflowRequest} {exec : RequestStep}
  {status : Option StepStatus} {steps : RowOrder WorkflowStep}
  {transitions : RowOrder StepTransition}

/-! ## Settled calls do not see the orders -/

theorem accepted_reordered (steps : RowOrder WorkflowStep) (transitions : RowOrder StepTransition)
    (haccepted : Accepted env db requestId user outcome context request exec status) :
    Accepted (env.reordered steps transitions) db requestId user outcome context request exec
      status :=
  ⟨haccepted.request_read, haccepted.execution_open, haccepted.permitted, haccepted.status_stored,
    haccepted.audited, haccepted.committed⟩

theorem nextStepOf_reordered (steps : RowOrder WorkflowStep)
    (transitions : RowOrder StepTransition)
    (hsettled : ∀ next other, Offers db request outcome context next →
      Offers db request outcome context other → Reaches env next → next = other)
    (hreaches : Reaches env (nextStepOf env db request outcome context)) :
    nextStepOf (env.reordered steps transitions) db request outcome context =
      nextStepOf env db request outcome context := by
  simp only [nextStepOf, resolveNext, Env.reordered] at hreaches ⊢
  cases hpick : env.transitionOrder.pick (enabled (evalContext request.requestData context))
      (matchingTransitions db request.currentStepId outcome) with
  | none =>
      rw [RowOrder.pick_eq_none_iff.mpr (RowOrder.pick_eq_none_iff.mp hpick)]
  | some trans =>
      rw [hpick, Option.bind_some] at hreaches
      have hagree := (RowOrder.pick_settled_iff _ _
          (fun trans : StepTransition => trans.toStepId.bind db.step?) (Reaches env)).mpr
        (fun row hrow other hother henabled henabled' hrow' =>
          hsettled _ _ ⟨row, hrow, henabled, rfl⟩ ⟨other, hother, henabled', rfl⟩ hrow')
        env.transitionOrder transitions _ hreaches (by rw [hpick, Option.map_some])
      obtain ⟨other, hother, htarget⟩ := Option.map_eq_some_iff.mp hagree
      rw [hother, Option.bind_some, Option.bind_some]
      exact htarget

theorem routed_reordered (steps : RowOrder WorkflowStep) (transitions : RowOrder StepTransition)
    (hsettled : SettledDecision env db requestId user outcome context)
    (haccepted : Accepted env db requestId user outcome context request exec status)
    (hrouted : Routed env db user outcome context request exec status db') :
    Routed (env.reordered steps transitions) db user outcome context request exec status db' := by
  have hsame := nextStepOf_reordered steps transitions
    (hsettled request exec status haccepted)
  cases hrouted with
  | moved nextStep deadline hnext hdeadline =>
      rw [hnext] at hsame
      exact .moved nextStep deadline (hsame (by simp [Reaches, hdeadline])) hdeadline
  | finished hnext haudited hvalid =>
      rw [hnext] at hsame
      exact .finished (hsame haudited) haudited hvalid

theorem decided_reordered (hsettled : SettledDecision env db requestId user outcome context) :
    decided (env.reordered steps transitions) db requestId user outcome context =
      decided env db requestId user outcome context := by
  -- the orders of `env` lead back from the reordered surroundings
  have hback : ∀ {request exec status}, Accepted (env.reordered steps transitions) db requestId user
      outcome context request exec status →
        Accepted env db requestId user outcome context request exec status := by
    intro request exec status haccepted
    have hreturned := accepted_reordered env.stepOrder env.transitionOrder haccepted
    exact hreturned
  have hsettled' : SettledDecision (env.reordered steps transitions) db requestId user outcome
      context := fun request exec status haccepted =>
    hsettled request exec status (hback haccepted)
  apply Option.ext
  intro db'
  rw [decided_iff, decided_iff]
  constructor
  · rintro ⟨request, exec, status, haccepted, hrouted⟩
    have hreturned := routed_reordered env.stepOrder env.transitionOrder hsettled' haccepted hrouted
    exact ⟨request, exec, status, hback haccepted, hreturned⟩
  · rintro ⟨request, exec, status, haccepted, hrouted⟩
    exact ⟨request, exec, status, accepted_reordered steps transitions haccepted,
      routed_reordered steps transitions hsettled haccepted hrouted⟩

theorem started_reordered {workflowId requesterId : Uuid} {data : Dict}
    (hsettled : SettledStart env db workflowId data) :
    started (env.reordered steps transitions) db workflowId requesterId data =
      started env db workflowId requesterId data := by
  have hagree : ∀ {first second : RowOrder WorkflowStep} {step : WorkflowStep},
      (activeWorkflow db workflowId).isSome →
      (env.dbFails 0 || !Json.encodesFields data || env.dbFails 1 || env.dbFails 2 ||
        env.brokerFails 0) = false →
      ((env.utcnow 0).addHours step.slaHours).isSome →
      firstStep first db workflowId = some step → firstStep second db workflowId = some step := by
    intro first second step hworkflow hup hdeadline hfirst
    have hpick := (RowOrder.pick_settled_iff
      (fun step : WorkflowStep => step.workflowId = workflowId ∧ step.stepOrder = 1) _ id
      (fun step => ((env.utcnow 0).addHours step.slaHours).isSome)).mpr
      (fun row hrow other hother haccepts haccepts' hrow' => hsettled hworkflow hup row hrow other
        hother (by simpa only [IsFirst, decide_eq_true_eq] using haccepts)
        (by simpa only [IsFirst, decide_eq_true_eq] using haccepts') hrow')
      first second step hdeadline (by rw [Option.map_id_fun]; exact hfirst)
    rwa [Option.map_id_fun] at hpick
  apply Option.ext
  intro db'
  rw [started_iff, started_iff]
  constructor
  · rintro ⟨workflow, first, deadline, hworkflow, hfirst, hdeadline, hup, rfl⟩
    exact ⟨workflow, first, deadline, hworkflow,
      hagree (by rw [hworkflow, Option.isSome_some]) hup (Option.isSome_of_eq_some hdeadline)
        hfirst, hdeadline, hup, rfl⟩
  · rintro ⟨workflow, first, deadline, hworkflow, hfirst, hdeadline, hup, rfl⟩
    exact ⟨workflow, first, deadline, hworkflow,
      hagree (by rw [hworkflow, Option.isSome_some]) hup (Option.isSome_of_eq_some hdeadline)
        hfirst, hdeadline, hup, rfl⟩

theorem createSteps_reordered (workflowId : Uuid) (trip : ℕ)
    (stepsMap : WorkflowService.StepsMap) (payload : List WorkflowStepCreate) :
    WorkflowService.createSteps (env.reordered steps transitions) workflowId trip stepsMap payload =
      WorkflowService.createSteps env workflowId trip stepsMap payload := by
  induction payload generalizing trip stepsMap with
  | nil => rfl
  | cons stepData rest ih =>
      simp only [WorkflowService.createSteps, ih]
      rfl

theorem escalateEach_reordered (position breachCount : ℕ) (rows : List RequestStep) :
    SLAMonitor.escalateEach (env.reordered steps transitions) position breachCount rows =
      SLAMonitor.escalateEach env position breachCount rows := by
  induction rows generalizing position breachCount with
  | nil => rfl
  | cons exec rest ih =>
      simp only [SLAMonitor.escalateEach, ih]
      rfl

/-- A settled call leaves the same state for all orders. -/
theorem perform_reordered (hdb : WellFormed db) {call : Call} (hsettled : Settled db call) :
    (call.reordered steps transitions).perform db = call.perform db := by
  cases call with
  | createWorkflow env payload creatorId =>
      simp only [Call.reordered, Call.perform, WorkflowService.createWorkflow,
        createSteps_reordered]
      rfl
  | deleteWorkflow env workflowId => rfl
  | startWorkflow env workflowId requesterId data =>
      have hfresh := fun request hrequest => (hdb.request_fresh request hrequest).ne
      rw [Call.reordered, perform_startWorkflow hfresh, perform_startWorkflow hfresh,
        started_reordered hsettled]
  | processStep env requestId user outcome context =>
      rw [Call.reordered, perform_processStep, perform_processStep, decided_reordered hsettled]
  | makeDecision env requestId user payload =>
      rcases makeDecision_cases requestId payload with ⟨outcome, houtcome, heq⟩ | ⟨-, heq⟩
      · rw [Call.reordered, (heq _ db user).1, (heq env db user).1, perform_processStep,
          perform_processStep, decided_reordered (hsettled outcome houtcome)]
      · rw [Call.reordered, (heq _ db user).1, (heq env db user).1]
  | scanForBreaches env =>
      simp only [Call.reordered, Call.perform, SLAMonitor.scanForBreaches, escalateEach_reordered]
      rfl

/-! ## Open choices show -/

/-- A course led on to a next step, or to a verdict. -/
def ledOn (outcome : String) (course : List Uuid × List RequestStatus) :
    Option WorkflowStep → List Uuid × List RequestStatus
  | some next => (course.1 ++ [next.id], course.2)
  | none => (course.1, course.2 ++ [verdictOf outcome])

/-- A course after a decision. -/
def extended (env : Env) (outcome : String) (course : List Uuid × List RequestStatus)
    (next : Option WorkflowStep) : List Uuid × List RequestStatus :=
  if Reaches env next then ledOn outcome course next else course

/-- A committed decision leads the course of its request on. -/
theorem course_routed (hrouted : Routed env db user outcome context request exec status db') :
    course db' request.id =
      ledOn outcome (course db request.id) (nextStepOf env db request outcome context) := by
  have hsteps : ((closedSteps env db exec user outcome context status).filter
      (·.requestId = request.id)).map (·.stepId) = (db.executions request.id).map (·.stepId) := by
    have hkeep : ∀ row, decide (((decisionOf env exec user outcome context).on status
        row).requestId = request.id) = decide (row.requestId = request.id) := fun _ => rfl
    have hstep : ∀ row, ((decisionOf env exec user outcome context).on status row).stepId =
        row.stepId := fun _ => rfl
    rw [closedSteps, Database.closeStep, Keyed.filter_update hkeep, Keyed.map_update hstep]
    rfl
  cases hrouted with
  | moved next deadline hnext hdeadline =>
      rw [hnext]
      refine Prod.ext ?_ rfl
      simp only [course, movedOn, Database.executions, List.filter_append, List.map_append]
      rw [hsteps]
      simp [executionRow, Database.executions, ledOn]
  | finished hnext haudited hvalid =>
      rw [hnext]
      apply Prod.ext hsteps
      have hverdict := verdictOf_cases outcome
      simp [course, completed, historyRow, List.filter_append, hverdict, ledOn]

theorem course_decision (hdb : WellFormed db)
    (haccepted : Accepted env db requestId user outcome context request exec status) :
    course ((Call.processStep env requestId user outcome context).perform db) requestId =
      extended env outcome (course db requestId) (nextStepOf env db request outcome context) := by
  obtain ⟨-, rfl⟩ := hdb.request?_eq_some_iff.mp haccepted.request_read
  obtain ⟨-, -, closed, hactive⟩ :=
    hdb.active_of_openExecution haccepted.request_read haccepted.execution_open
  rw [perform_processStep]
  by_cases hreaches : Reaches env (nextStepOf env db request outcome context)
  · rw [extended, if_pos hreaches]
    have hrouted : ∃ db', Routed env db user outcome context request exec status db' := by
      cases hnext : nextStepOf env db request outcome context with
      | some next =>
          rw [hnext] at hreaches
          obtain ⟨deadline, hdeadline⟩ := Option.isSome_iff_exists.mp hreaches
          exact ⟨_, .moved next deadline hnext hdeadline⟩
      | none =>
          rw [hnext] at hreaches
          have hvalid : isValidTransition request.status (verdictOf outcome) = true := by
            rw [hactive.status_eq]
            exact verdictOf_follows outcome
          exact ⟨_, .finished hnext hreaches hvalid⟩
    obtain ⟨db', hrouted⟩ := hrouted
    rw [decided_iff.mpr ⟨request, exec, status, haccepted, hrouted⟩, Option.getD_some]
    exact course_routed hrouted
  · rw [extended, if_neg hreaches]
    cases hdecided : decided env db request.id user outcome context with
    | none => rfl
    | some db' =>
        refine absurd ?_ hreaches
        obtain ⟨other, exec', status', haccepted', hrouted⟩ := decided_iff.mp hdecided
        obtain rfl := Option.some.inj (haccepted.request_read.symm.trans haccepted'.request_read)
        cases hrouted with
        | moved nextStep deadline hnext hdeadline =>
            rw [hnext]
            exact Option.isSome_of_eq_some hdeadline
        | finished hnext haudited hvalid =>
            rw [hnext]
            exact haudited

/-- Where a decision can commit, another target gives another course. -/
theorem extended_inj (env : Env) (outcome : String) {before : List Uuid × List RequestStatus}
    {next other : Option WorkflowStep}
    (hids : ∀ step ∈ next, ∀ step' ∈ other, step.id = step'.id → step = step')
    (hreaches : Reaches env next)
    (hsame : extended env outcome before next = extended env outcome before other) :
    next = other := by
  rw [extended, extended, if_pos hreaches] at hsame
  by_cases hother : Reaches env other
  · rw [if_pos hother] at hsame
    cases next with
    | some step =>
        cases other with
        | some step' =>
            have hid := congrArg Prod.fst hsame
            simp only [ledOn, List.append_cancel_left_eq, List.cons.injEq, and_true] at hid
            exact congrArg some (hids step rfl step' rfl hid)
        | none => simp [ledOn] at hsame
    | none =>
        cases other with
        | some step' => simp [ledOn] at hsame
        | none => rfl
  · rw [if_neg hother] at hsame
    cases next with
    | some step => simp [ledOn, Prod.ext_iff] at hsame
    | none => simp [ledOn, Prod.ext_iff] at hsame

theorem settledDecision_of_course (hdb : WellFormed db)
    (hsame : ∀ first second : RowOrder StepTransition,
      course ((Call.processStep (env.reordered env.stepOrder first) requestId user outcome
          context).perform db) requestId =
        course ((Call.processStep (env.reordered env.stepOrder second) requestId user outcome
          context).perform db) requestId) :
    SettledDecision env db requestId user outcome context := by
  rintro request exec status haccepted _ _ ⟨trans, htrans, henabled, rfl⟩
    ⟨trans', htrans', henabled', rfl⟩ hreaches
  obtain ⟨first, hfirst⟩ := RowOrder.exists_pick htrans henabled
  obtain ⟨second, hsecond⟩ := RowOrder.exists_pick htrans' henabled'
  have hcourse := hsame first second
  rw [course_decision hdb (accepted_reordered _ _ haccepted),
    course_decision hdb (accepted_reordered _ _ haccepted)] at hcourse
  simp only [nextStepOf, resolveNext, Env.reordered, hfirst, hsecond, Option.bind_some] at hcourse
  refine extended_inj env outcome (fun step hstep step' hstep' hid => ?_)
    hreaches hcourse
  obtain ⟨target, -, hstep⟩ := Option.bind_eq_some_iff.mp hstep
  obtain ⟨target', -, hstep'⟩ := Option.bind_eq_some_iff.mp hstep'
  exact Keyed.ext hdb.step_keys (List.mem_of_find?_eq_some hstep)
    (List.mem_of_find?_eq_some hstep') hid

theorem course_start (env : Env) (hdb : WellFormed db) {workflowId requesterId : Uuid} {data : Dict}
    {first : WorkflowStep} (hworkflow : (activeWorkflow db workflowId).isSome)
    (hup : (env.dbFails 0 || !Json.encodesFields data || env.dbFails 1 || env.dbFails 2 ||
      env.brokerFails 0) = false)
    (hfirst : firstStep env.stepOrder db workflowId = some first) :
    (course ((Call.startWorkflow env workflowId requesterId data).perform db) db.nextId).1 =
      if ((env.utcnow 0).addHours first.slaHours).isSome then [first.id] else [] := by
  have hnone : db.executions db.nextId = [] :=
    List.filter_eq_nil_iff.mpr fun exec hexec => by
      simpa using hdb.execution_request_fresh exec hexec
  obtain ⟨workflow, hworkflow⟩ := Option.isSome_iff_exists.mp hworkflow
  rw [perform_startWorkflow fun request hrequest => (hdb.request_fresh request hrequest).ne]
  cases hdeadline : (env.utcnow 0).addHours first.slaHours with
  | some deadline =>
      rw [started_iff.mpr ⟨workflow, first, deadline, hworkflow, hfirst, hdeadline, hup, rfl⟩,
        Option.getD_some]
      rw [Database.executions] at hnone
      simp [course, startedAt, Database.executions, List.filter_append, hnone, executionRow]
  | none =>
      cases hstarted : started env db workflowId requesterId data with
      | none => simp [course, hnone]
      | some db' =>
          obtain ⟨-, other, deadline, -, hother, hlater, -, -⟩ := started_iff.mp hstarted
          obtain rfl := Option.some.inj (hfirst.symm.trans hother)
          rw [hdeadline] at hlater
          cases hlater

/-- Some order gives any of the first steps. -/
theorem exists_firstStep {workflowId : Uuid} {step : WorkflowStep}
    (hstep : step ∈ db.workflowSteps) (hfirst : IsFirst workflowId step) :
    ∃ order, firstStep order db workflowId = some step :=
  RowOrder.exists_pick hstep (by simpa only [IsFirst, decide_eq_true_eq] using hfirst)

theorem settledStart_of_course (hdb : WellFormed db) {workflowId requesterId : Uuid} {data : Dict}
    (hsame : ∀ first second : RowOrder WorkflowStep,
      course ((Call.startWorkflow (env.reordered first env.transitionOrder) workflowId requesterId
          data).perform db) db.nextId =
        course ((Call.startWorkflow (env.reordered second env.transitionOrder) workflowId
          requesterId data).perform db) db.nextId) :
    SettledStart env db workflowId data := by
  intro hworkflow hup step hstep other hother hfirst hfirst' hdeadline
  obtain ⟨first, hpick⟩ := exists_firstStep hstep hfirst
  obtain ⟨second, hpick'⟩ := exists_firstStep hother hfirst'
  have hcourse : (if ((env.utcnow 0).addHours step.slaHours).isSome then [step.id] else []) =
      if ((env.utcnow 0).addHours other.slaHours).isSome then [other.id] else [] :=
    (course_start (env.reordered first env.transitionOrder) hdb hworkflow hup hpick).symm.trans
      ((congrArg Prod.fst (hsame first second)).trans
        (course_start (env.reordered second env.transitionOrder) hdb hworkflow hup hpick'))
  rw [if_pos hdeadline] at hcourse
  by_cases hlater : ((env.utcnow 0).addHours other.slaHours).isSome
  · rw [if_pos hlater] at hcourse
    exact Keyed.ext hdb.step_keys hstep hother (List.cons.inj hcourse).1
  · rw [if_neg hlater] at hcourse
    cases hcourse

/-- A call that gives the same courses for all orders is settled. -/
theorem settled_of_course (hdb : WellFormed db) {call : Call}
    (hsame : ∀ call', SameButOrders call call' → ∀ requestId,
      course (call'.perform db) requestId = course (call.perform db) requestId) :
    Settled db call := by
  have hsame' : ∀ steps transitions steps' transitions' requestId,
      course ((call.reordered steps transitions).perform db) requestId =
        course ((call.reordered steps' transitions').perform db) requestId :=
    fun steps transitions steps' transitions' requestId =>
      (hsame _ ⟨steps, transitions, rfl⟩ requestId).trans
        (hsame _ ⟨steps', transitions', rfl⟩ requestId).symm
  cases call with
  | startWorkflow env workflowId requesterId data =>
      exact settledStart_of_course hdb fun first second => hsame' _ _ _ _ _
  | processStep env requestId user outcome context =>
      exact settledDecision_of_course hdb fun first second => hsame' _ _ _ _ _
  | makeDecision env requestId user payload =>
      intro outcome houtcome
      rcases makeDecision_cases requestId payload with
        ⟨outcome', houtcome', heq⟩ | ⟨⟨error, herror⟩, -⟩
      · obtain rfl : outcome = outcome' := Except.ok.inj (houtcome.symm.trans houtcome')
        apply settledDecision_of_course hdb
        intro first second
        rw [← (heq _ db user).1, ← (heq _ db user).1]
        exact hsame' _ _ _ _ _
      · rw [houtcome] at herror
        cases herror
  | createWorkflow _ _ _ | deleteWorkflow _ _ | scanForBreaches _ => trivial

/-! ## Runs -/

/-- Both transitions of the first review are for an approval, and neither has a guard. -/
def twoWays : WorkflowCreate :=
  Sample.twoReviews [⟨1, some 2, "APPROVED", none⟩, ⟨1, none, "APPROVED", none⟩]

def decisionCall (requestId : Uuid) (decision : User × String × Option Dict) : Call :=
  .processStep (.calm Sample.noon) requestId decision.1 decision.2.1 decision.2.2

end WorkflowPlatform
