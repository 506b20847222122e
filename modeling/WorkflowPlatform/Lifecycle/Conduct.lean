import WorkflowPlatform.Lifecycle.DefinitionChanges
import WorkflowPlatform.Engine.CallEffect

/-! # Conducted requests

A request is conducted when its executions record a journey through the graph of
its workflow. It is active at the last execution, the only open one, or it is
finished and all its executions are decided. A state is well formed when its
definitions are, its rows refer to rows that exist, and every request is
conducted.
-/

namespace WorkflowPlatform

open Python WorkflowEngine

/-! ## The record of a request -/

/-- The visit an execution records: its step, its outcome and what the guards saw. -/
def visitOf (request : WorkflowRequest) (exec : RequestStep) : Uuid × (String × Dict) :=
  (exec.stepId, exec.status.value, evalContext request.requestData exec.decisionData)

/-- An execution as it was opened. -/
structure RequestStep.Untouched (exec : RequestStep) : Prop where
  status_pending : exec.status = .pending
  completedAt_none : exec.completedAt = none
  decisionData_none : exec.decisionData = none

/-- A request at its last execution. -/
structure Active (db : Database) (request : WorkflowRequest) (decided : List RequestStep)
    (current : RequestStep) : Prop where
  executions_eq : db.executions request.id = decided ++ [current]
  decided_closed : ∀ exec ∈ decided, exec.completedAt.isSome
  untouched : current.Untouched
  journey : (db.graph request.workflowId).Journey (decided.map (visitOf request))
    (some current.stepId)
  status_eq : request.status = .inProgress
  currentStepId_eq : request.currentStepId = some current.stepId
  completedAt_eq : request.completedAt = none

/-- A request that has run to its end. -/
structure Finished (db : Database) (request : WorkflowRequest) : Prop where
  executions_closed : ∀ exec ∈ db.executions request.id, exec.completedAt.isSome
  journey : (db.graph request.workflowId).Journey
    ((db.executions request.id).map (visitOf request)) none
  status_eq : request.status = .completed
  currentStepId_eq : request.currentStepId = none
  completedAt_some : request.completedAt.isSome

def Conducted (db : Database) (request : WorkflowRequest) : Prop :=
  (∃ decided current, Active db request decided current) ∨ Finished db request

/-- Two rows that record the same. -/
structure SameRecord (exec exec' : RequestStep) : Prop where
  stepId : exec'.stepId = exec.stepId
  status : exec'.status = exec.status
  decisionData : exec'.decisionData = exec.decisionData
  completedAt : exec'.completedAt = exec.completedAt

theorem SameRecord.refl (exec : RequestStep) : SameRecord exec exec := ⟨rfl, rfl, rfl, rfl⟩

theorem SameRecord.visitOf_eq {exec exec' : RequestStep} (hsame : SameRecord exec exec')
    (request : WorkflowRequest) : visitOf request exec' = visitOf request exec := by
  rw [visitOf, visitOf, hsame.stepId, hsame.status, hsame.decisionData]

theorem map_visitOf_eq {update : RequestStep → RequestStep}
    (hupdate : ∀ exec, SameRecord exec (update exec)) (request : WorkflowRequest)
    (execs : List RequestStep) :
    (execs.map update).map (visitOf request) = execs.map (visitOf request) := by
  rw [List.map_map]
  exact List.map_congr_left fun exec _ => (hupdate exec).visitOf_eq request

/-- A request stays conducted while its executions record the same and its workflow is kept. -/
theorem Conducted.congr {db db' : Database} {request : WorkflowRequest}
    (update : RequestStep → RequestStep)
    (hexecutions : db'.executions request.id = (db.executions request.id).map update)
    (hupdate : ∀ exec, SameRecord exec (update exec))
    (hkeeps : KeepsWorkflow db db' request.workflowId) (hdb : WellDefined db)
    (hconducted : Conducted db request) : Conducted db' request := by
  have hclosed : ∀ {execs : List RequestStep}, (∀ exec ∈ execs, exec.completedAt.isSome) →
      ∀ exec ∈ execs.map update, exec.completedAt.isSome := by
    intro execs hexecs exec hexec
    obtain ⟨before, hbefore, rfl⟩ := List.mem_map.mp hexec
    rw [(hupdate before).completedAt]
    exact hexecs before hbefore
  rcases hconducted with ⟨decided, current, hactive⟩ | hfinished
  · refine .inl ⟨decided.map update, update current, ?_⟩
    exact {
      executions_eq := by rw [hexecutions, hactive.executions_eq, List.map_append]; rfl
      decided_closed := hclosed hactive.decided_closed
      untouched := {
        status_pending := (hupdate current).status.trans hactive.untouched.status_pending
        completedAt_none := (hupdate current).completedAt.trans hactive.untouched.completedAt_none
        decisionData_none :=
          (hupdate current).decisionData.trans hactive.untouched.decisionData_none }
      journey := by
        rw [map_visitOf_eq hupdate, (hupdate current).stepId]
        exact hkeeps.journey hdb hactive.journey
      status_eq := hactive.status_eq
      currentStepId_eq := by rw [(hupdate current).stepId]; exact hactive.currentStepId_eq
      completedAt_eq := hactive.completedAt_eq }
  · refine .inr ?_
    exact {
      executions_closed := by
        rw [hexecutions]
        exact hclosed hfinished.executions_closed
      journey := by
        rw [hexecutions, map_visitOf_eq hupdate]
        exact hkeeps.journey hdb hfinished.journey
      status_eq := hfinished.status_eq
      currentStepId_eq := hfinished.currentStepId_eq
      completedAt_some := hfinished.completedAt_some }

/-! ## Well-formed states -/

/-- The deadline of an execution is its start plus the hours of its step. -/
def Scheduled (db : Database) (exec : RequestStep) : Prop :=
  ∃ step ∈ db.workflowSteps, step.id = exec.stepId ∧ ∃ started deadline,
    exec.startedAt = some started ∧ exec.deadline = some deadline ∧
      started.addHours step.slaHours = some deadline

/-- What holds of every state the platform's calls lead to. -/
structure WellFormed (db : Database) : Prop extends WellDefined db where
  request_keys : (db.workflowRequests.map (·.id)).Nodup
  request_fresh : ∀ request ∈ db.workflowRequests, request.id < db.nextId
  request_workflow : ∀ request ∈ db.workflowRequests,
    ∃ workflow ∈ db.workflows, workflow.id = request.workflowId
  execution_keys : (db.requestSteps.map (·.id)).Nodup
  execution_fresh : ∀ exec ∈ db.requestSteps, exec.id < db.nextId
  execution_request : ∀ exec ∈ db.requestSteps,
    ∃ request ∈ db.workflowRequests, request.id = exec.requestId
  scheduled : ∀ exec ∈ db.requestSteps, Scheduled db exec
  escalation_keys : (db.slaEscalations.map (·.requestStepId)).Nodup
  escalation_execution : ∀ escalation ∈ db.slaEscalations,
    ∃ exec ∈ db.requestSteps, exec.id = escalation.requestStepId ∧ exec.isSlaBreached = true
  breach_escalated : ∀ exec ∈ db.requestSteps, exec.isSlaBreached = true →
    ∃ escalation ∈ db.slaEscalations, escalation.requestStepId = exec.id
  conducted : ∀ request ∈ db.workflowRequests, Conducted db request

theorem wellFormed_empty : WellFormed Database.empty := by
  constructor
  · constructor <;> simp [Database.empty]
  all_goals simp [Database.empty]

namespace WellFormed

variable {db : Database} (hdb : WellFormed db)

include hdb

/-! ## Looking rows up -/

theorem request?_eq_some_iff {requestId : Uuid} {request : WorkflowRequest} :
    db.request? requestId = some request ↔
      request ∈ db.workflowRequests ∧ request.id = requestId :=
  Keyed.find?_eq_some_iff hdb.request_keys

/-- The workflow of a request is there. -/
theorem workflow?_of_request {request : WorkflowRequest}
    (hrequest : request ∈ db.workflowRequests) :
    ∃ workflow, db.workflow? request.workflowId = some workflow := by
  obtain ⟨workflow, hworkflow, hid⟩ := hdb.request_workflow request hrequest
  apply Option.isSome_iff_exists.mp
  rw [Database.workflow?, List.find?_isSome]
  exact ⟨workflow, hworkflow, decide_eq_true hid⟩

omit hdb in
theorem mem_executions {requestId : Uuid} {exec : RequestStep} :
    exec ∈ db.executions requestId ↔ exec ∈ db.requestSteps ∧ exec.requestId = requestId := by
  simp [Database.executions]

theorem executions_keys (requestId : Uuid) : ((db.executions requestId).map (·.id)).Nodup :=
  hdb.execution_keys.sublist (List.filter_sublist.map _)

/-- A request that is about to be inserted has no executions. -/
theorem execution_request_fresh : ∀ exec ∈ db.requestSteps, exec.requestId ≠ db.nextId := by
  intro exec hexec
  obtain ⟨request, hrequest, hid⟩ := hdb.execution_request exec hexec
  exact hid ▸ (hdb.request_fresh request hrequest).ne

theorem effect_perform (call : Call) : Effect db call (call.perform db) :=
  WorkflowPlatform.effect_perform (fun request hrequest => (hdb.request_fresh request hrequest).ne)
    call

/-! ## The open execution -/

/-- The execution a decision closes is the last of an active request. -/
theorem active_of_openExecution {requestId : Uuid} {request : WorkflowRequest} {exec : RequestStep}
    {order : RowOrder RequestStep} (hrequest : db.request? requestId = some request)
    (hexec : openExecution order db requestId request.currentStepId = some exec) :
    exec ∈ db.requestSteps ∧ exec.requestId = request.id ∧
      ∃ decided, Active db request decided exec := by
  obtain ⟨hstored, rfl⟩ := hdb.request?_eq_some_iff.mp hrequest
  obtain ⟨hmem, haccepted⟩ := RowOrder.pick_some hexec
  simp only [decide_eq_true_eq, Option.isNone_iff_eq_none] at haccepted
  obtain ⟨howner, hcurrent, hopen⟩ := haccepted
  have hlisted : exec ∈ db.executions request.id := mem_executions.mpr ⟨hmem, howner⟩
  refine ⟨hmem, howner, ?_⟩
  rcases hdb.conducted request hstored with ⟨decided, current, hactive⟩ | hfinished
  · rw [hactive.executions_eq] at hlisted
    rcases List.mem_append.mp hlisted with hdecided | hlast
    · have hclosed := hactive.decided_closed exec hdecided
      rw [hopen] at hclosed
      cases hclosed
    · exact ⟨decided, List.mem_singleton.mp hlast ▸ hactive⟩
  · rw [hfinished.currentStepId_eq] at hcurrent
    cases hcurrent

omit hdb in
/-- An active request has one open execution, whatever the order of the rows. -/
theorem openExecution_of_active {request : WorkflowRequest} {decided : List RequestStep}
    {current : RequestStep} (hactive : Active db request decided current)
    (order : RowOrder RequestStep) :
    openExecution order db request.id request.currentStepId = some current := by
  have hlisted : current ∈ db.executions request.id := by
    rw [hactive.executions_eq]
    exact List.mem_append_right _ (List.mem_singleton_self _)
  obtain ⟨hmem, howner⟩ := mem_executions.mp hlisted
  refine RowOrder.pick_eq_some_of_unique hmem ?_ fun other hother haccepted => ?_
  · simp [howner, hactive.currentStepId_eq, hactive.untouched.completedAt_none]
  · simp only [decide_eq_true_eq, Option.isNone_iff_eq_none] at haccepted
    have hother : other ∈ db.executions request.id := mem_executions.mpr ⟨hother, haccepted.1⟩
    rw [hactive.executions_eq] at hother
    rcases List.mem_append.mp hother with hdecided | hlast
    · have hclosed := hactive.decided_closed other hdecided
      rw [haccepted.2.2] at hclosed
      cases hclosed
    · exact List.mem_singleton.mp hlast

/-- The step of an active request belongs to its workflow. -/
theorem hasStep_of_active {request : WorkflowRequest} {decided : List RequestStep}
    {current : RequestStep} (hactive : Active db request decided current) :
    db.HasStep request.workflowId current.stepId :=
  hactive.journey.inside (fun _ => WellDefined.hasStep_of_entry)
    (hdb.toWellDefined.hasStep_of_edge request.workflowId) _ rfl

/-- A request has been at its first step. -/
theorem executions_ne_nil {request : WorkflowRequest} (hrequest : request ∈ db.workflowRequests) :
    db.executions request.id ≠ [] := by
  rcases hdb.conducted request hrequest with ⟨decided, current, hactive⟩ | hfinished
  · rw [hactive.executions_eq]
    exact List.append_ne_nil_of_right_ne_nil decided (List.cons_ne_nil current [])
  · intro hnil
    have hjourney := hfinished.journey
    rw [hnil] at hjourney
    exact hjourney.log_ne_nil rfl

/-- So does the step of any execution. -/
theorem hasStep_of_execution {request : WorkflowRequest} (hrequest : request ∈ db.workflowRequests)
    {exec : RequestStep} (hexec : exec ∈ db.executions request.id) :
    db.HasStep request.workflowId exec.stepId := by
  have hvisits := fun {log current}
      (hjourney : (db.graph request.workflowId).Journey log current) =>
    hjourney.visits_inside (fun _ => WellDefined.hasStep_of_entry)
      (hdb.toWellDefined.hasStep_of_edge request.workflowId)
  rcases hdb.conducted request hrequest with ⟨decided, current, hactive⟩ | hfinished
  · rw [hactive.executions_eq] at hexec
    rcases List.mem_append.mp hexec with hdecided | hlast
    · exact hvisits hactive.journey _ (List.mem_map_of_mem (f := visitOf request) hdecided)
    · exact List.mem_singleton.mp hlast ▸ hdb.hasStep_of_active hactive
  · exact hvisits hfinished.journey _ (List.mem_map_of_mem (f := visitOf request) hexec)

end WellFormed

end WorkflowPlatform
