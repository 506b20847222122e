import WorkflowPlatform.Lifecycle.Shapes

/-! # What a decision closes

A decision names a request, not an execution. It closes the execution that is open
when it runs: the one the task list showed as long as nobody has decided that
one, a later one of the same request afterwards.
-/

namespace WorkflowPlatform

open Python WorkflowEngine

/-- One execution is closed and every other one is left alone. -/
def ClosesOnly (db db' : Database) (execId : Uuid) : Prop :=
  (∃ exec ∈ db.requestSteps, exec.id = execId ∧ exec.completedAt = none) ∧
    (∃ exec ∈ db'.requestSteps, exec.id = execId ∧ exec.completedAt.isSome = true) ∧
    ∀ exec ∈ db.requestSteps, exec.id ≠ execId → exec ∈ db'.requestSteps

variable {db db' : Database} {requestId : Uuid} {user : User} {call : Call}

/-- A routed decision closes its execution and no other. -/
theorem closesOnly_routed (hdb : WellFormed db) {env : Env} {outcome : String}
    {context : Option Dict} {request : WorkflowRequest} {exec : RequestStep}
    {status : Option StepStatus}
    (haccepted : Accepted env db requestId user outcome context request exec status)
    (hrouted : Routed env db user outcome context request exec status db') :
    ClosesOnly db db' exec.id := by
  obtain ⟨hexec, -, decided, hactive⟩ :=
    hdb.active_of_openExecution haccepted.request_read haccepted.execution_open
  have hsteps : ∀ row ∈ closedSteps env db exec user outcome context status,
      row ∈ db'.requestSteps := by
    intro row hrow
    cases hrouted with
    | moved nextStep deadline hnext hdeadline => exact List.mem_append_left _ hrow
    | finished hnext haudited hvalid => exact hrow
  refine ⟨⟨exec, hexec, rfl, hactive.untouched.completedAt_none⟩,
    ⟨closedExecution env exec user outcome context status,
      hsteps _ (Keyed.mem_update.mpr (.inl ⟨exec, hexec, rfl, rfl⟩)), rfl, rfl⟩, ?_⟩
  intro row hrow hne
  exact hsteps row (Keyed.mem_update.mpr (.inr ⟨hrow, hne⟩))

/-- An accepted submission closes the one open execution of its request. -/
theorem closes_open (hdb : WellFormed db) (hsubmits : Submits requestId user call) :
    (call.accepted db = false ∧ call.perform db = db) ∨
      (call.accepted db = true ∧ ∃ exec, db.openExecutions requestId = [exec] ∧
        ClosesOnly db (call.perform db) exec.id) := by
  rcases submits_cases hsubmits db with hrefused | ⟨haccepts, outcome, context, -, hdecided⟩
  · exact .inl hrefused
  · obtain ⟨request, exec, status, haccepted, hrouted⟩ := decided_iff.mp hdecided
    obtain ⟨-, hid⟩ := hdb.request?_eq_some_iff.mp haccepted.request_read
    obtain ⟨-, -, decided, hactive⟩ :=
      hdb.active_of_openExecution haccepted.request_read haccepted.execution_open
    exact .inr ⟨haccepts, exec, hid ▸ openExecutions_of_active hactive,
      closesOnly_routed hdb haccepted hrouted⟩

/-! ## Executions nobody decides -/

theorem mem_openExecutions {exec : RequestStep} :
    exec ∈ db.openExecutions requestId ↔
      exec ∈ db.requestSteps ∧ exec.requestId = requestId ∧ exec.completedAt = none := by
  simp only [Database.openExecutions, Database.executions, List.mem_filter, decide_eq_true_eq,
    Option.isNone_iff_eq_none, and_assoc]

/-- An execution of a request that is still to be decided. -/
def StillOpen (db : Database) (requestId execId : Uuid) : Prop :=
  ∃ exec ∈ db.openExecutions requestId, exec.id = execId

/-- Scans change nothing about what is open. -/
theorem stillOpen_escalateOne {env : Env} {item : SLAMonitor.Positioned} {execId : Uuid}
    (hopen : StillOpen db requestId execId) :
    StillOpen (SLAMonitor.escalateOne env db item) requestId execId := by
  obtain ⟨exec, hexec, hid⟩ := hopen
  obtain ⟨hmem, howner, hcompleted⟩ := mem_openExecutions.mp hexec
  by_cases hmarked : exec.id = item.2.id
  · exact ⟨{ exec with isSlaBreached := true }, mem_openExecutions.mpr
      ⟨Keyed.mem_update.mpr (.inl ⟨exec, hmem, hmarked, rfl⟩), howner, hcompleted⟩, hid⟩
  · exact ⟨exec, mem_openExecutions.mpr
      ⟨Keyed.mem_update.mpr (.inr ⟨hmem, hmarked⟩), howner, hcompleted⟩, hid⟩

/-- Only a decision on the request itself closes its open execution. -/
theorem stillOpen_perform (hdb : WellFormed db) {execId : Uuid}
    (hopen : StillOpen db requestId execId) (hother : ∀ user, ¬Submits requestId user call) :
    StillOpen (call.perform db) requestId execId := by
  have hsame : ∀ {db' : Database}, (∀ exec ∈ db.requestSteps, exec ∈ db'.requestSteps) →
      StillOpen db' requestId execId := by
    intro db' hsteps
    obtain ⟨exec, hexec, hid⟩ := hopen
    obtain ⟨hmem, howner, hcompleted⟩ := mem_openExecutions.mp hexec
    exact ⟨exec, mem_openExecutions.mpr ⟨hsteps exec hmem, howner, hcompleted⟩, hid⟩
  have heffect := hdb.effect_perform call
  generalize call.perform db = db' at heffect ⊢
  cases heffect with
  | refused => exact hopen
  | defined => exact hsame fun _ hexec => hexec
  | deleted env workflowId db' hdeleted =>
      obtain ⟨-, -, rfl⟩ := Database.deleteWorkflow?_eq_some hdeleted
      exact hsame fun _ hexec => hexec
  | started => exact hsame fun _ hexec => List.mem_append_left _ hexec
  | decided _ otherId user outcome context request closed status db' hsubmits _ _ haccepted
      hrouted =>
      obtain ⟨exec, hexec, hid⟩ := hopen
      obtain ⟨hmem, howner, hcompleted⟩ := mem_openExecutions.mp hexec
      obtain ⟨-, hread⟩ := hdb.request?_eq_some_iff.mp haccepted.request_read
      obtain ⟨hmem', howner', -⟩ :=
        hdb.active_of_openExecution haccepted.request_read haccepted.execution_open
      -- the closed execution belongs to another request
      have hdistinct : exec.id ≠ closed.id := by
        intro heq
        rw [Keyed.ext hdb.execution_keys hmem hmem' heq, howner', hread] at howner
        exact hother user (howner ▸ hsubmits)
      obtain ⟨-, -, hothers⟩ := closesOnly_routed hdb haccepted hrouted
      exact ⟨exec, mem_openExecutions.mpr ⟨hothers exec hmem hdistinct, howner, hcompleted⟩, hid⟩
  | scanned env =>
      unfold SLAMonitor.scanned
      split
      · exact hopen
      · exact SLAMonitor.escalated_induction (fun db => StillOpen db requestId execId)
          (fun _ _ _ hopen => stillOpen_escalateOne hopen) hopen

theorem stillOpen_runCalls (hdb : WellFormed db) {execId : Uuid} {calls : List Call}
    (hopen : StillOpen db requestId execId)
    (hothers : ∀ call ∈ calls, ∀ user, ¬Submits requestId user call) :
    StillOpen (runCalls db calls) requestId execId := by
  induction calls generalizing db with
  | nil => exact hopen
  | cons call rest ih =>
      exact ih (wellFormed_perform hdb call)
        (stillOpen_perform hdb hopen (hothers call List.mem_cons_self))
        fun other hother => hothers other (List.mem_cons_of_mem _ hother)

/-! ## Tasks -/

/-- A task stands for an open execution of its request. -/
theorem stillOpen_of_task {order : RowOrder RequestStep} {task : Endpoint.TaskView}
    (htask : task ∈ Endpoint.getMyTasks order db user) :
    StillOpen db task.requestId task.requestStepId := by
  obtain ⟨exec, hexec, hview⟩ := List.mem_filterMap.mp htask
  simp only [RowOrder.mem_rows, List.mem_filter, decide_eq_true_eq, Option.isNone_iff_eq_none]
    at hexec
  simp only [Endpoint.taskView?, Option.bind_eq_bind, Option.bind_eq_some_iff,
    Option.ite_none_right_eq_some] at hview
  obtain ⟨_, -, _, -, -, _, -, hview⟩ := hview
  cases hview
  exact ⟨exec, mem_openExecutions.mpr ⟨hexec.1, rfl, hexec.2.2⟩, rfl⟩

/-- A decision submitted for a shown task is refused and changes nothing, or closes
exactly one execution: the one open execution of the task's request. That is the
shown one as long as it is undecided, so in any case when nobody submitted a
decision for the request in between. -/
theorem submission_closes_open {db : Database} (hreachable : Reachable db) (user : User)
    (order : RowOrder RequestStep) {task : Endpoint.TaskView}
    (htask : task ∈ Endpoint.getMyTasks order db user) (calls : List Call) {call : Call}
    (hsubmits : Submits task.requestId user call) :
    let before := runCalls db calls
    (call.accepted before = false ∧ call.perform before = before) ∨
      (call.accepted before = true ∧ ∃ exec, before.openExecutions task.requestId = [exec] ∧
        ClosesOnly before (call.perform before) exec.id ∧
        (exec.id = task.requestStepId ↔ StillOpen before task.requestId task.requestStepId) ∧
        ((∀ other ∈ calls, ∀ user, ¬Submits task.requestId user other) →
          exec.id = task.requestStepId)) := by
  intro before
  have hbefore : WellFormed before := wellFormed_runCalls hreachable.wellFormed calls
  rcases closes_open hbefore hsubmits with hrefused | ⟨haccepts, exec, hopen, hcloses⟩
  · exact .inl hrefused
  · have hshown : exec.id = task.requestStepId ↔
        StillOpen before task.requestId task.requestStepId := by
      rw [StillOpen, hopen]
      simp
    exact .inr ⟨haccepts, exec, hopen, hcloses, hshown, fun hothers => hshown.mpr
      (stillOpen_runCalls hreachable.wellFormed (stillOpen_of_task htask) hothers)⟩

/-! ### One decision, submitted twice -/

/-- A request at the first of two reviews. -/
def underReview : Database := runCalls Database.empty (Sample.opening Sample.approvals [])

/-- The task list shows the first review. -/
theorem review_shown : ∃ task ∈ Endpoint.getMyTasks .stored underReview Sample.admin,
    task.requestId = 5 ∧ task.requestStepId = 7 := by
  decide +kernel

theorem submission_closes_open_review :
    (Sample.approval.accepted underReview = false ∧
        Sample.approval.perform underReview = underReview) ∨
      (Sample.approval.accepted underReview = true ∧
        ∃ exec, underReview.openExecutions 5 = [exec] ∧
        ClosesOnly underReview (Sample.approval.perform underReview) exec.id ∧
        (exec.id = 7 ↔ StillOpen underReview 5 7) ∧
        ((∀ other ∈ ([] : List Call), ∀ user, ¬Submits 5 user other) → exec.id = 7)) := by
  obtain ⟨task, htask, hrequest, hstep⟩ := review_shown
  have hcloses := submission_closes_open
    (show Reachable underReview from ⟨Sample.opening Sample.approvals [], rfl⟩) Sample.admin
    .stored htask [] (.process (.calm Sample.noon) "APPROVED" none)
  rw [hrequest, hstep] at hcloses
  exact hcloses

/-- Submitted twice for the first review, an approval closes the second review too. -/
theorem submission_misses_task :
    ¬∀ db, Reachable db → ∀ user order, ∀ task ∈ Endpoint.getMyTasks order db user, ∀ calls,
      SerialRun.EachStep Call.perform (fun db call => call.accepted db = true) db calls →
      ∀ call, Submits task.requestId user call →
        let before := runCalls db calls
        (call.accepted before = false ∧ call.perform before = before) ∨
          ClosesOnly before (call.perform before) task.requestStepId := by
  intro hlands
  obtain ⟨task, htask, hrequest, hstep⟩ := review_shown
  have htwice := hlands underReview ⟨Sample.opening Sample.approvals [], rfl⟩ Sample.admin .stored
    task htask [Sample.approval] ⟨by decide +kernel, trivial⟩ Sample.approval
    (hrequest ▸ .process (.calm Sample.noon) "APPROVED" none)
  rw [hstep] at htwice
  rcases htwice with ⟨hrefused, -⟩ | ⟨hopen, -⟩
  · revert hrefused
    decide +kernel
  · revert hopen
    decide +kernel

end WorkflowPlatform
