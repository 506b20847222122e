import WorkflowPlatform.Lifecycle.Preservation

/-! # Decisions move journeys on

An accepted decision on an active request takes one enabled edge of the graph of
its workflow, or ends the journey there; every other request is left alone.
-/

namespace WorkflowPlatform

open Python WorkflowEngine

variable {env : Env} {db db' : Database} {requestId : Uuid} {user : User} {outcome : String}
  {context : Option Dict} {request : WorkflowRequest} {exec : RequestStep}
  {status : Option StepStatus} {decided : List RequestStep}

theorem sameDefinitions_routed
    (hrouted : Routed env db user outcome context request exec status db') :
    SameDefinitions db db' := by
  cases hrouted with
  | moved nextStep deadline hnext hdeadline => exact ⟨rfl, rfl, rfl, Nat.le_add_right _ _⟩
  | finished hnext haudited hvalid => exact ⟨rfl, rfl, rfl, Nat.le_add_right _ _⟩

/-- The edge a decision takes. -/
theorem nextStepOf_edge (env : Env) (outcome : String) (context : Option Dict) (hdb : WellFormed db)
    (hactive : Active db request decided exec) :
    match nextStepOf env db request outcome context with
    | some next => (db.graph request.workflowId).edge exec.stepId
        (outcome, evalContext request.requestData context) (some next.id)
    | none => (db.graph request.workflowId).Ends exec.stepId
        (outcome, evalContext request.requestData context) := by
  rw [nextStepOf, hactive.currentStepId_eq]
  exact hdb.toWellDefined.resolveNext_edge (hdb.hasStep_of_active hactive) _ _ _

/-- The step a decision leads to is a stored one. -/
theorem nextStepOf_mem {nextStep : WorkflowStep}
    (hnext : nextStepOf env db request outcome context = some nextStep) :
    nextStep ∈ db.workflowSteps := by
  obtain ⟨trans, -, htarget⟩ := Option.bind_eq_some_iff.mp hnext
  obtain ⟨target, -, hfound⟩ := Option.bind_eq_some_iff.mp htarget
  exact List.mem_of_find?_eq_some hfound

/-- It is a step of the same workflow. -/
theorem nextStepOf_mem_stepsOf (hdb : WellFormed db) (hactive : Active db request decided exec)
    {nextStep : WorkflowStep}
    (hnext : nextStepOf env db request outcome context = some nextStep) :
    nextStep ∈ db.stepsOf request.workflowId := by
  have hedge := nextStepOf_edge env outcome context hdb hactive
  rw [hnext] at hedge
  obtain ⟨step, hstep, hid, hworkflow⟩ := hdb.toWellDefined.hasStep_of_edge _ _ _ _
    (hdb.hasStep_of_active hactive) hedge
  obtain rfl := Keyed.ext hdb.step_keys hstep (nextStepOf_mem hnext) hid
  exact List.mem_filter.mpr ⟨hstep, decide_eq_true hworkflow⟩

/-! ## The decided request -/

/-- The request after a decision that opened a step. -/
def movedRequest (request : WorkflowRequest) (nextStep : WorkflowStep) : WorkflowRequest :=
  RequestUpdate.on ⟨none, changed request.currentStepId (some nextStep.id), none⟩ request

/-- Setting the current step to the one it already is writes nothing, to the same effect. -/
theorem movedRequest_eq (request : WorkflowRequest) (nextStep : WorkflowStep) :
    movedRequest request nextStep = { request with currentStepId := some nextStep.id } := by
  simp only [movedRequest, RequestUpdate.on, changed]
  split
  · next heq => simp [heq]
  · simp

/-- The decided execution is closed and the one of the next step comes last. -/
theorem executions_movedOn (hdb : WellFormed db) (hactive : Active db request decided exec)
    (nextStep : WorkflowStep) (deadline : DateTime) :
    (movedOn env db request exec user outcome context status nextStep
        deadline).executions request.id =
      (decided ++ [closedExecution env exec user outcome context status]) ++
        [executionRow request.id nextStep.id (env.utcnow 1) deadline db.nextId] := by
  apply (List.filter_append _ _).trans
  rw [executions_closedSteps hdb hactive]
  simp [executionRow]

theorem executions_completed (hdb : WellFormed db) (hactive : Active db request decided exec) :
    (completed env db request exec user outcome context status).executions request.id =
      decided ++ [closedExecution env exec user outcome context status] :=
  executions_closedSteps hdb hactive

theorem active_movedRequest (hdb : WellFormed db) (hactive : Active db request decided exec)
    (hstatus : (decisionOf env exec user outcome context).storedStatus? = some status)
    {nextStep : WorkflowStep} (deadline : DateTime)
    (hnext : nextStepOf env db request outcome context = some nextStep) :
    Active (movedOn env db request exec user outcome context status nextStep deadline)
      (movedRequest request nextStep)
      (decided ++ [closedExecution env exec user outcome context status])
      (executionRow request.id nextStep.id (env.utcnow 1) deadline db.nextId) := by
  rw [movedRequest_eq]
  have hedge := nextStepOf_edge env outcome context hdb hactive
  rw [hnext] at hedge
  exact {
    executions_eq := executions_movedOn hdb hactive nextStep deadline
    decided_closed := decided_closed_concat hactive
    untouched := ⟨rfl, rfl, rfl⟩
    journey := by
      rw [List.map_append, List.map_singleton]
      change DecisionGraph.Journey _ (_ ++ [visitOf request _]) _
      rw [visitOf_closedExecution hactive.untouched hstatus]
      exact .move hactive.journey hedge
    status_eq := hactive.status_eq
    currentStepId_eq := rfl
    completedAt_eq := hactive.completedAt_eq }

/-- The request after a decision that ended its journey. -/
def completedRequest (env : Env) (request : WorkflowRequest) : WorkflowRequest :=
  (completion (env.utcnow 1)).on request

theorem finished_completedRequest (hdb : WellFormed db) (hactive : Active db request decided exec)
    (hstatus : (decisionOf env exec user outcome context).storedStatus? = some status)
    (hnext : nextStepOf env db request outcome context = none) :
    Finished (completed env db request exec user outcome context status)
      (completedRequest env request) := by
  have hends := nextStepOf_edge env outcome context hdb hactive
  rw [hnext] at hends
  have hexecutions : (completed env db request exec user outcome context status).executions
      (completedRequest env request).id =
        decided ++ [closedExecution env exec user outcome context status] :=
    (executions_completed hdb hactive :)
  exact {
    executions_closed := by
      rw [hexecutions]
      exact decided_closed_concat hactive
    journey := by
      rw [hexecutions, List.map_append, List.map_singleton]
      change DecisionGraph.Journey _ (_ ++ [visitOf request _]) _
      rw [visitOf_closedExecution hactive.untouched hstatus]
      exact .finish hactive.journey hends
    status_eq := rfl
    currentStepId_eq := rfl
    completedAt_some := rfl }

/-! ## The state after a decision -/

/-- The other requests are found as they were. -/
theorem request?_routed_of_ne {other : Uuid} (hne : other ≠ request.id)
    (hrouted : Routed env db user outcome context request exec status db') :
    db'.request? other = db.request? other := by
  cases hrouted with
  | moved => exact Keyed.find?_update_of_ne (RequestUpdate.on_id _) hne db.workflowRequests
  | finished => exact Keyed.find?_update_of_ne (RequestUpdate.on_id _) hne db.workflowRequests

/-- The other requests keep their executions. -/
theorem executions_routed_of_ne (hdb : WellFormed db) (hexec : exec ∈ db.requestSteps)
    (howner : exec.requestId = request.id) {other : Uuid} (hne : request.id ≠ other)
    (hrouted : Routed env db user outcome context request exec status db') :
    db'.executions other = db.executions other := by
  have hkept : (closedSteps env db exec user outcome context status).filter (·.requestId = other) =
      db.executions other := executions_closedSteps_of_ne hdb hexec (howner ▸ hne)
  cases hrouted with
  | moved nextStep deadline hnext hdeadline => exact (executions_concat_of_ne hne).trans hkept
  | finished hnext haudited hvalid => exact hkept

/-- A decision keeps states well formed. -/
theorem wellFormed_routed (hdb : WellFormed db)
    (haccepted : Accepted env db requestId user outcome context request exec status)
    (hrouted : Routed env db user outcome context request exec status db') : WellFormed db' := by
  obtain ⟨hstored, hid⟩ := hdb.request?_eq_some_iff.mp haccepted.request_read
  obtain ⟨hexec, howner, decided, hactive⟩ :=
    hdb.active_of_openExecution haccepted.request_read haccepted.execution_open
  have hsame := sameDefinitions_routed hrouted
  have hothers : ∀ other ∈ db.workflowRequests, other.id ≠ request.id → Conducted db' other := by
    intro other hother hne
    refine (hdb.conducted other hother).congr id ?_ (fun exec => .refl exec)
      (hsame.keepsWorkflow _) hdb.toWellDefined
    rw [List.map_id]
    exact executions_routed_of_ne hdb hexec howner hne.symm hrouted
  cases hrouted with
  | moved nextStep deadline hnext hdeadline =>
      have hstep := nextStepOf_mem hnext
      refine wellFormed_of_rows
        (some (executionRow request.id nextStep.id (env.utcnow 1) deadline db.nextId)) hdb hsame rfl
        rfl rfl (sameSchedule_decision _ _) ?_ ?_
      · rintro _ ⟨⟩
        exact {
          id_fresh := le_rfl
          id_drawn := Nat.lt_add_of_pos_right Nat.two_pos
          request := ⟨request, hstored, rfl⟩
          scheduled := ⟨nextStep, hstep, rfl, _, _, rfl, rfl, hdeadline⟩
          unmarked := rfl }
      · intro other hother
        rcases Keyed.mem_update.mp hother with ⟨before, hbefore, heq, rfl⟩ | ⟨hold, hne⟩
        · rw [Keyed.ext hdb.request_keys hbefore hstored heq]
          exact .inl ⟨_, _, active_movedRequest hdb hactive haccepted.status_stored deadline hnext⟩
        · exact hothers other hold hne
  | finished hnext haudited hvalid =>
      refine wellFormed_of_rows none hdb hsame (List.append_nil _).symm rfl rfl
        (sameSchedule_decision _ _) (by rintro _ ⟨⟩) ?_
      intro other hother
      rcases Keyed.mem_update.mp hother with ⟨before, hbefore, heq, rfl⟩ | ⟨hold, hne⟩
      · rw [Keyed.ext hdb.request_keys hbefore hstored heq]
        exact .inr (finished_completedRequest hdb hactive haccepted.status_stored hnext)
      · exact hothers other hold hne

/-- A committed decision was accepted on the stored request it names. -/
theorem accepted_of_decided (hdb : WellFormed db) (hrequest : request ∈ db.workflowRequests)
    (hdecided : WorkflowEngine.decided env db request.id user outcome context = some db') :
    ∃ exec status, Accepted env db request.id user outcome context request exec status ∧
      Routed env db user outcome context request exec status db' := by
  obtain ⟨other, exec, status, haccepted, hrouted⟩ := decided_iff.mp hdecided
  have hread : db.request? request.id = some request :=
    hdb.request?_eq_some_iff.mpr ⟨hrequest, rfl⟩
  obtain rfl : request = other := Option.some.inj (hread.symm.trans haccepted.request_read)
  exact ⟨exec, status, haccepted, hrouted⟩

/-- On an active request it closes the current execution. -/
theorem accepted_of_active (hdb : WellFormed db) (hrequest : request ∈ db.workflowRequests)
    (hactive : Active db request decided exec)
    (hdecided : WorkflowEngine.decided env db request.id user outcome context = some db') :
    ∃ status, Accepted env db request.id user outcome context request exec status ∧
      Routed env db user outcome context request exec status db' := by
  obtain ⟨other, status, haccepted, hrouted⟩ := accepted_of_decided hdb hrequest hdecided
  have hopen := WellFormed.openExecution_of_active hactive env.executionOrder
  obtain rfl : exec = other := Option.some.inj (hopen.symm.trans haccepted.execution_open)
  exact ⟨status, haccepted, hrouted⟩

theorem wellFormed_decided (hdb : WellFormed db)
    (hdecided : WorkflowEngine.decided env db requestId user outcome context = some db') :
    WellFormed db' := by
  obtain ⟨request, exec, status, haccepted, hrouted⟩ := decided_iff.mp hdecided
  exact wellFormed_routed hdb haccepted hrouted

end WorkflowPlatform
