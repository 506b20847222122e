import WorkflowPlatform.Lifecycle.Conduct

/-! # Calls keep states well formed

Every call leaves a well-formed state well formed. A start adds an active
request; a decision moves its journey on by one edge or ends it; a scan marks
executions without touching what they record.
-/

namespace WorkflowPlatform

open Python WorkflowEngine

variable {db : Database}

/-! ## Starting -/

theorem sameDefinitions_startedAt (env : Env) (db : Database) (workflowId requesterId : Uuid)
    (data : Dict) (first : WorkflowStep) (deadline : DateTime) :
    SameDefinitions db (startedAt env db workflowId requesterId data first deadline) :=
  ⟨rfl, rfl, rfl, Nat.le_add_right _ _⟩

theorem executions_concat_of_ne {requestSteps : List RequestStep} {exec : RequestStep}
    {requestId : Uuid} (hne : exec.requestId ≠ requestId) :
    (requestSteps ++ [exec]).filter (·.requestId = requestId) =
      requestSteps.filter (·.requestId = requestId) := by
  simp [List.filter_append, hne]

theorem firstStep_spec {order : RowOrder WorkflowStep} {workflowId : Uuid} {first : WorkflowStep}
    (hfirst : firstStep order db workflowId = some first) :
    first ∈ db.workflowSteps ∧ first.workflowId = workflowId ∧ first.stepOrder = 1 := by
  obtain ⟨hmem, haccepted⟩ := RowOrder.pick_some hfirst
  exact ⟨hmem, by simpa using haccepted⟩

/-- A started request is at its first step. -/
theorem active_startedRequest (hdb : WellFormed db) {env : Env} {workflowId : Uuid}
    (requesterId : Uuid) (data : Dict) {first : WorkflowStep} (deadline : DateTime)
    (hfirst : firstStep env.stepOrder db workflowId = some first) :
    Active (startedAt env db workflowId requesterId data first deadline)
      (startedRequest env workflowId requesterId data first db.nextId) []
      (executionRow db.nextId first.id (env.utcnow 0) deadline (db.nextId + 2)) where
  executions_eq := by
    have hnone : db.executions db.nextId = [] :=
      List.filter_eq_nil_iff.mpr fun exec hexec => by
        simpa using hdb.execution_request_fresh exec hexec
    apply (List.filter_append _ _).trans
    rw [startedRequest, requestRow, ← Database.executions, hnone]
    simp [executionRow]
  decided_closed := by simp
  untouched := ⟨rfl, rfl, rfl⟩
  journey := by
    obtain ⟨hmem, hworkflow, horder⟩ := firstStep_spec hfirst
    rw [(sameDefinitions_startedAt env db workflowId requesterId data first deadline).graph_eq]
    exact .enter ⟨first, hmem, rfl, hworkflow, horder⟩
  status_eq := rfl
  currentStepId_eq := rfl
  completedAt_eq := rfl

theorem wellFormed_startedAt (hdb : WellFormed db) {env : Env} {workflowId : Uuid}
    (requesterId : Uuid) (data : Dict) {workflow : Workflow} {first : WorkflowStep}
    {deadline : DateTime} (hworkflow : activeWorkflow db workflowId = some workflow)
    (hfirst : firstStep env.stepOrder db workflowId = some first)
    (hdeadline : (env.utcnow 0).addHours first.slaHours = some deadline) :
    WellFormed (startedAt env db workflowId requesterId data first deadline) := by
  have hsame := sameDefinitions_startedAt env db workflowId requesterId data first deadline
  have hnext : db.nextId < db.nextId + 4 := by lia
  exact {
    toWellDefined := hsame.wellDefined hdb.toWellDefined
    request_keys := Keyed.nodup_concat hdb.request_keys fun other hother =>
      (hdb.request_fresh other hother).ne
    request_fresh := by
      intro request hrequest
      rcases List.mem_append.mp hrequest with hold | hnew
      · exact (hdb.request_fresh request hold).trans hnext
      · rw [List.mem_singleton.mp hnew]
        exact hnext
    request_workflow := by
      intro request hrequest
      rcases List.mem_append.mp hrequest with hold | hnew
      · exact hdb.request_workflow request hold
      · rw [List.mem_singleton.mp hnew]
        exact ⟨workflow, (activeWorkflow_spec hworkflow).1, (activeWorkflow_spec hworkflow).2.1⟩
    execution_keys := Keyed.nodup_concat hdb.execution_keys fun other hother => by
      have hlt := hdb.execution_fresh other hother
      simp only [executionRow]
      lia
    execution_fresh := by
      intro exec hexec
      rcases List.mem_append.mp hexec with hold | hnew
      · exact (hdb.execution_fresh exec hold).trans hnext
      · rw [List.mem_singleton.mp hnew]
        simp only [executionRow, startedAt]
        lia
    execution_request := by
      intro exec hexec
      rcases List.mem_append.mp hexec with hold | hnew
      · obtain ⟨request, hrequest, hid⟩ := hdb.execution_request exec hold
        exact ⟨request, List.mem_append_left _ hrequest, hid⟩
      · rw [List.mem_singleton.mp hnew]
        exact ⟨_, List.mem_append_right _ (List.mem_singleton_self _), rfl⟩
    scheduled := by
      intro exec hexec
      rcases List.mem_append.mp hexec with hold | hnew
      · exact hdb.scheduled exec hold
      · rw [List.mem_singleton.mp hnew]
        exact ⟨first, (firstStep_spec hfirst).1, rfl, env.utcnow 0, deadline, rfl, rfl, hdeadline⟩
    escalation_keys := hdb.escalation_keys
    escalation_execution := by
      intro escalation hescalation
      obtain ⟨exec, hexec, hid, hbreached⟩ := hdb.escalation_execution escalation hescalation
      exact ⟨exec, List.mem_append_left _ hexec, hid, hbreached⟩
    breach_escalated := by
      intro exec hexec hbreached
      rcases List.mem_append.mp hexec with hold | hnew
      · exact hdb.breach_escalated exec hold hbreached
      · rw [List.mem_singleton.mp hnew] at hbreached
        cases hbreached
    conducted := by
      intro request hrequest
      rcases List.mem_append.mp hrequest with hold | hnew
      · refine (hdb.conducted request hold).congr id ?_ (fun exec => .refl exec)
          (hsame.keepsWorkflow _) hdb.toWellDefined
        rw [List.map_id]
        exact executions_concat_of_ne (hdb.request_fresh request hold).ne'
      · rw [List.mem_singleton.mp hnew]
        exact .inl ⟨[], _, active_startedRequest hdb requesterId data deadline hfirst⟩ }

/-! ## Deciding -/

/-- Two rows of one execution that agree on when it is due. -/
structure SameSchedule (exec exec' : RequestStep) : Prop where
  id : exec'.id = exec.id
  requestId : exec'.requestId = exec.requestId
  stepId : exec'.stepId = exec.stepId
  startedAt : exec'.startedAt = exec.startedAt
  deadline : exec'.deadline = exec.deadline
  isSlaBreached : exec'.isSlaBreached = exec.isSlaBreached

theorem SameSchedule.refl (exec : RequestStep) : SameSchedule exec exec :=
  ⟨rfl, rfl, rfl, rfl, rfl, rfl⟩

theorem sameSchedule_decision (decision : Decision) (status : Option StepStatus)
    (exec : RequestStep) : SameSchedule exec (decision.on status exec) :=
  ⟨rfl, rfl, rfl, rfl, rfl, rfl⟩

theorem SameSchedule.scheduled {exec exec' : RequestStep} (hsame : SameSchedule exec exec')
    (hscheduled : Scheduled db exec) : Scheduled db exec' := by
  obtain ⟨step, hstep, hid, started, deadline, hstarted, hdeadline, hadd⟩ := hscheduled
  exact ⟨step, hstep, by rw [hid, hsame.stepId], started, deadline,
    by rw [hsame.startedAt, hstarted], by rw [hsame.deadline, hdeadline], hadd⟩

theorem SameDefinitions.scheduled {db db' : Database} (hsame : SameDefinitions db db')
    {exec : RequestStep} (hscheduled : Scheduled db exec) : Scheduled db' exec := by
  rw [Scheduled, hsame.workflowSteps]
  exact hscheduled

/-- A row that a decision may open. -/
structure Opened (db db' : Database) (exec : RequestStep) : Prop where
  id_fresh : db.nextId ≤ exec.id
  id_drawn : exec.id < db'.nextId
  request : ∃ request ∈ db.workflowRequests, request.id = exec.requestId
  scheduled : Scheduled db exec
  unmarked : exec.isSlaBreached = false

section Rows

variable {db' : Database} {opened : Option RequestStep} {execId : Uuid}
  {change : RequestStep → RequestStep}

/-- A row has the schedule of one there was before, or it was opened. -/
theorem rows_updated (hchange : ∀ exec, SameSchedule exec (change exec))
    (hopened : ∀ exec ∈ opened, Opened db db' exec) :
    ∀ exec ∈ Keyed.update (·.id) execId change db.requestSteps ++ opened.toList,
      (∃ before ∈ db.requestSteps, SameSchedule before exec) ∨ Opened db db' exec := by
  intro exec hexec
  rw [List.mem_append, Option.mem_toList] at hexec
  rcases hexec with hold | hnew
  · rcases Keyed.mem_update.mp hold with ⟨before, hbefore, -, rfl⟩ | ⟨hold, -⟩
    · exact .inl ⟨before, hbefore, hchange before⟩
    · exact .inl ⟨exec, hold, .refl exec⟩
  · exact .inr (hopened exec hnew)

/-- No row is lost. -/
theorem rows_kept (opened : Option RequestStep)
    (hchange : ∀ exec, SameSchedule exec (change exec)) {exec : RequestStep}
    (hexec : exec ∈ db.requestSteps) :
    ∃ after ∈ Keyed.update (·.id) execId change db.requestSteps ++ opened.toList,
      SameSchedule exec after := by
  by_cases hid : exec.id = execId
  · refine ⟨change exec, List.mem_append_left _ ?_, hchange exec⟩
    exact Keyed.mem_update.mpr (.inl ⟨exec, hexec, hid, rfl⟩)
  · refine ⟨exec, List.mem_append_left _ ?_, .refl exec⟩
    exact Keyed.mem_update.mpr (.inr ⟨hexec, hid⟩)

/-- An opened row has an identifier of its own. -/
theorem rows_keys (hdb : WellFormed db) (hchange : ∀ exec, SameSchedule exec (change exec))
    (hopened : ∀ exec ∈ opened, Opened db db' exec) :
    ((Keyed.update (·.id) execId change db.requestSteps ++ opened.toList).map (·.id)).Nodup := by
  have hids : (Keyed.update (·.id) execId change db.requestSteps).map (·.id) =
      db.requestSteps.map (·.id) := Keyed.map_key_update (fun exec => (hchange exec).id) _
  have hold := hdb.execution_keys
  rw [← hids] at hold
  cases opened with
  | none => simpa using hold
  | some exec =>
      apply Keyed.nodup_concat hold
      intro other hother
      have hid := List.mem_map_of_mem (f := fun row : RequestStep => row.id) hother
      rw [hids] at hid
      obtain ⟨before, hbefore, heq⟩ := List.mem_map.mp hid
      rw [← heq]
      exact ((hdb.execution_fresh before hbefore).trans_le (hopened exec rfl).id_fresh).ne

end Rows

/-- A state in which one execution was changed, at most one opened, and one
request updated is well formed as soon as its requests are conducted. -/
theorem wellFormed_of_rows {db' : Database} (opened : Option RequestStep) (hdb : WellFormed db)
    (hsame : SameDefinitions db db')
    {execId requestId : Uuid} {change : RequestStep → RequestStep} {update : RequestUpdate}
    (hsteps : db'.requestSteps =
      Keyed.update (·.id) execId change db.requestSteps ++ opened.toList)
    (hrequests : db'.workflowRequests =
      Keyed.update (·.id) requestId update.on db.workflowRequests)
    (hescalations : db'.slaEscalations = db.slaEscalations)
    (hchange : ∀ exec, SameSchedule exec (change exec))
    (hopened : ∀ exec ∈ opened, Opened db db' exec)
    (hconducted : ∀ request ∈ db'.workflowRequests, Conducted db' request) : WellFormed db' := by
  have hrows : ∀ exec ∈ db'.requestSteps,
      (∃ before ∈ db.requestSteps, SameSchedule before exec) ∨ Opened db db' exec := by
    rw [hsteps]
    exact rows_updated hchange hopened
  have hids : db'.workflowRequests.map (·.id) = db.workflowRequests.map (·.id) := by
    rw [hrequests]
    exact Keyed.map_key_update update.on_id _
  have hrequestIds : ∀ id, (∃ request ∈ db.workflowRequests, request.id = id) →
      ∃ request ∈ db'.workflowRequests, request.id = id := by
    intro id hid
    rw [← List.mem_map (f := fun request : WorkflowRequest => request.id), hids]
    exact List.mem_map.mpr hid
  exact {
    toWellDefined := hsame.wellDefined hdb.toWellDefined
    request_keys := by
      rw [hids]
      exact hdb.request_keys
    request_fresh := by
      intro request hrequest
      have hid := List.mem_map_of_mem (f := fun row : WorkflowRequest => row.id) hrequest
      rw [hids] at hid
      obtain ⟨before, hbefore, heq⟩ := List.mem_map.mp hid
      exact heq ▸ (hdb.request_fresh before hbefore).trans_le hsame.nextId_le
    request_workflow := by
      intro request hrequest
      rw [hrequests] at hrequest
      rw [hsame.workflows]
      rcases Keyed.mem_update.mp hrequest with ⟨before, hbefore, -, rfl⟩ | ⟨hold, -⟩
      · exact hdb.request_workflow before hbefore
      · exact hdb.request_workflow request hold
    execution_keys := by
      rw [hsteps]
      exact rows_keys hdb hchange hopened
    execution_fresh := by
      intro exec hexec
      rcases hrows exec hexec with ⟨before, hbefore, hagree⟩ | hnew
      · exact hagree.id ▸ (hdb.execution_fresh before hbefore).trans_le hsame.nextId_le
      · exact hnew.id_drawn
    execution_request := by
      intro exec hexec
      rcases hrows exec hexec with ⟨before, hbefore, hagree⟩ | hnew
      · rw [hagree.requestId]
        exact hrequestIds _ (hdb.execution_request before hbefore)
      · exact hrequestIds _ hnew.request
    scheduled := by
      intro exec hexec
      rcases hrows exec hexec with ⟨before, hbefore, hagree⟩ | hnew
      · exact hsame.scheduled (hagree.scheduled (hdb.scheduled before hbefore))
      · exact hsame.scheduled hnew.scheduled
    escalation_keys := hescalations ▸ hdb.escalation_keys
    escalation_execution := by
      intro escalation hescalation
      rw [hescalations] at hescalation
      obtain ⟨exec, hexec, hid, hbreached⟩ := hdb.escalation_execution escalation hescalation
      obtain ⟨after, hafter, hagree⟩ := rows_kept opened hchange hexec
      rw [← hsteps] at hafter
      exact ⟨after, hafter, hagree.id.trans hid, hagree.isSlaBreached.trans hbreached⟩
    breach_escalated := by
      intro exec hexec hbreached
      rw [hescalations]
      rcases hrows exec hexec with ⟨before, hbefore, hagree⟩ | hnew
      · rw [hagree.id]
        exact hdb.breach_escalated before hbefore (hagree.isSlaBreached ▸ hbreached)
      · rw [hnew.unmarked] at hbreached
        cases hbreached
    conducted := hconducted }

/-! ### The executions after a decision -/

section Decided

variable {env : Env} {request : WorkflowRequest} {exec : RequestStep} {user : User}
  {outcome : String} {context : Option Dict} {status : Option StepStatus}
  {decided : List RequestStep}

/-- The decided execution, closed. -/
def closedExecution (env : Env) (exec : RequestStep) (user : User) (outcome : String)
    (context : Option Dict) (status : Option StepStatus) : RequestStep :=
  (decisionOf env exec user outcome context).on status exec

/-- The executions of the other requests are left alone. -/
theorem executions_closedSteps_of_ne (hdb : WellFormed db) (hexec : exec ∈ db.requestSteps)
    {requestId : Uuid} (hne : exec.requestId ≠ requestId) :
    (closedSteps env db exec user outcome context status).filter (·.requestId = requestId) =
      db.executions requestId := by
  have hkeep : ∀ row, decide (((decisionOf env exec user outcome context).on status row).requestId =
      requestId) = decide (row.requestId = requestId) := fun _ => rfl
  refine (Keyed.filter_update hkeep _).trans (Keyed.update_of_fresh (fun row hrow heq => ?_) _)
  obtain ⟨hrow, howner⟩ := WellFormed.mem_executions.mp hrow
  rw [Keyed.ext hdb.execution_keys hrow hexec heq] at howner
  exact hne howner

/-- The decided execution stays the last of its request. -/
theorem executions_closedSteps (hdb : WellFormed db)
    (hactive : Active db request decided exec) :
    (closedSteps env db exec user outcome context status).filter (·.requestId = request.id) =
      decided ++ [closedExecution env exec user outcome context status] := by
  have hkeep : ∀ row, decide (((decisionOf env exec user outcome context).on status row).requestId =
      request.id) = decide (row.requestId = request.id) := fun _ => rfl
  apply (Keyed.filter_update hkeep _).trans
  have hkeys := hdb.executions_keys request.id
  rw [hactive.executions_eq] at hkeys
  have hlast := Keyed.update_concat hkeys ((decisionOf env exec user outcome context).on status)
  rw [← hactive.executions_eq] at hlast
  exact hlast

/-- The decided execution records the outcome and the context of the decision. -/
theorem visitOf_closedExecution (huntouched : exec.Untouched)
    (hstatus : (decisionOf env exec user outcome context).storedStatus? = some status) :
    visitOf request (closedExecution env exec user outcome context status) =
      (exec.stepId, outcome, evalContext request.requestData context) := by
  simp only [visitOf, closedExecution, Decision.on, storedStatus?_eq_some hstatus, decisionOf,
    huntouched.decisionData_none, Option.or_none]

theorem decided_closed_concat (hactive : Active db request decided exec) :
    ∀ row ∈ decided ++ [closedExecution env exec user outcome context status],
      row.completedAt.isSome := by
  intro row hrow
  rcases List.mem_append.mp hrow with hold | hlast
  · exact hactive.decided_closed row hold
  · rw [List.mem_singleton.mp hlast]
    rfl

end Decided

end WorkflowPlatform
