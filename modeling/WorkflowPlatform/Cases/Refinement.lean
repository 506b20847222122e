import WorkflowPlatform.Cases.Automaton
import WorkflowPlatform.Foundation.Projection
import WorkflowPlatform.Ledger.Frame
import WorkflowPlatform.Lifecycle.Shapes

/-! # The engine runs cases

The rows of a request, without their identifiers and breach marks, are a case. Every
call is either a ruling on that case, and changes it as the ruling does, or leaves it
alone; so after any run of calls the case is where its own rulings lead.
-/

namespace WorkflowPlatform

open Python WorkflowEngine WorkflowService

/-! ## Reading the rows of a request -/

namespace Database

variable (db : Database)

/-- What decides about the requests of a workflow. -/
def definition (workflowId : Uuid) : Definition where
  steps := db.stepsOf workflowId
  transitions := db.stepTransitions.filter fun trans =>
    (db.stepsOf workflowId).any (·.id = trans.fromStepId)

end Database

def visitRow (exec : RequestStep) : Visit where
  stepId := exec.stepId
  startedAt := exec.startedAt
  deadline := exec.deadline
  decidedBy := exec.assignedTo
  outcome := exec.status
  data := exec.decisionData
  decidedAt := exec.completedAt

def waitingRow (exec : RequestStep) : Stage :=
  .waiting exec.stepId exec.startedAt exec.deadline

def caseOf (db : Database) (request : WorkflowRequest) : Case where
  data := request.requestData
  visits := ((db.executions request.id).filter (·.completedAt.isSome)).map visitRow
  stage := ((db.openExecutions request.id).head?.map waitingRow).getD (.closed request.completedAt)

/-- The case of a request, if there is such a request. -/
def Database.case? (db : Database) (requestId : Uuid) : Option Case :=
  (db.request? requestId).map (caseOf db)

/-- The ruling a call is on a request. A decision whose action gives no outcome is none. -/
def Call.rulingOn (requestId : Uuid) : Call → Option Ruling
  | processStep env id user outcome context =>
      if id = requestId then some ⟨env, user, outcome, context⟩ else none
  | makeDecision env id user payload =>
      if id = requestId then
        (Endpoint.outcomeOf (Endpoint.payloadGet payload "action")).toOption.map fun outcome =>
          ⟨env, user, outcome, some (Endpoint.decisionContext payload)⟩
      else none
  | _ => none

variable {db db' : Database} {request : WorkflowRequest} {decided : List RequestStep}
  {exec : RequestStep} {workflowId : Uuid}

/-! ## Definitions stay while they are in use -/

theorem any_stepsOf_iff {stepId : Uuid} :
    (db.stepsOf workflowId).any (·.id = stepId) = true ↔ db.HasStep workflowId stepId := by
  simp only [List.any_eq_true, decide_eq_true_eq, Database.stepsOf, List.mem_filter,
    Database.HasStep]
  constructor
  · intro hsome
    obtain ⟨step, ⟨hstep, hworkflow⟩, hid⟩ := hsome
    exact ⟨step, hstep, hid, hworkflow⟩
  · intro hsome
    obtain ⟨step, hstep, hid, hworkflow⟩ := hsome
    exact ⟨step, ⟨hstep, hworkflow⟩, hid⟩

/-- A definition is kept with its steps and with the transitions that leave them. -/
theorem definition_congr (hsteps : db'.stepsOf workflowId = db.stepsOf workflowId)
    (htransitions : db'.stepTransitions.filter (fun trans =>
        (db.stepsOf workflowId).any (·.id = trans.fromStepId)) =
      db.stepTransitions.filter fun trans =>
        (db.stepsOf workflowId).any (·.id = trans.fromStepId)) :
    db'.definition workflowId = db.definition workflowId := by
  rw [Database.definition, hsteps, htransitions, Database.definition]

theorem definition_of_sameDefinitions (hsame : SameDefinitions db db') :
    db'.definition workflowId = db.definition workflowId := by
  apply definition_congr
  · rw [Database.stepsOf, hsame.workflowSteps, Database.stepsOf]
  · rw [hsame.stepTransitions]

theorem definition_withDefinition (hdb : WellDefined db) (payload : WorkflowCreate)
    (creatorId : Uuid) (hlt : workflowId < db.nextId) :
    (withDefinition db payload creatorId).definition workflowId = db.definition workflowId := by
  apply definition_congr
  · simp only [Database.stepsOf, withDefinition, List.filter_append]
    apply List.append_right_eq_self.mpr
    apply List.filter_eq_nil_iff.mpr
    intro step hstep
    have hnew := (mem_storedSteps hstep).1
    simp only [decide_eq_true_eq]
    lia
  · simp only [withDefinition, List.filter_append]
    apply List.append_right_eq_self.mpr
    apply List.filter_eq_nil_iff.mpr
    intro trans htrans
    obtain ⟨transData, -, hfrom, -⟩ := mem_storedTransitions htrans
    have hlater := (hasStep_of_lookup creatorId hfrom).2
    rw [any_stepsOf_iff]
    intro hstep
    have hfresh := (hdb.hasStep_fresh hstep).1
    lia

theorem definition_deleted (hdb : WellDefined db) {deletedId : Uuid} (hne : workflowId ≠ deletedId)
    (hdeleted : db.deleteWorkflow? deletedId = some db') :
    db'.definition workflowId = db.definition workflowId := by
  obtain ⟨-, -, rfl⟩ := Database.deleteWorkflow?_eq_some hdeleted
  apply definition_congr
  · simp only [Database.stepsOf, List.filter_filter]
    apply List.filter_congr
    intro step _
    by_cases hworkflow : step.workflowId = workflowId
    · simp [hworkflow, hne]
    · simp [hworkflow]
  · rw [List.filter_filter]
    apply List.filter_congr
    intro trans htrans
    rw [Bool.and_eq_left_iff_imp, any_stepsOf_iff, decide_eq_true_eq]
    intro hfrom
    -- a transition from a kept step leaves and enters kept steps only
    have hstays : ∀ {stepId}, db.HasStep workflowId stepId →
        stepId ∉ (db.stepsOf deletedId).map (·.id) := by
      intro stepId hstep hgone
      exact hne (hdb.hasStep_unique hstep (Database.mem_gone_iff.mp hgone))
    exact ⟨hstays hfrom, fun target htarget =>
      hstays (hdb.hasStep_of_transition htrans hfrom htarget)⟩

/-- No call touches the definition of a request. -/
theorem definition_perform (hdb : WellFormed db) (hrequest : request ∈ db.workflowRequests)
    (call : Call) :
    (call.perform db).definition request.workflowId = db.definition request.workflowId := by
  have heffect := hdb.effect_perform call
  generalize call.perform db = db' at heffect ⊢
  cases heffect with
  | refused => rfl
  | defined env payload creatorId =>
      obtain ⟨workflow, hworkflow, hid⟩ := hdb.request_workflow request hrequest
      exact definition_withDefinition hdb.toWellDefined payload creatorId
        (hid ▸ hdb.workflow_fresh workflow hworkflow)
  | deleted env workflowId db' hdeleted =>
      exact definition_deleted hdb.toWellDefined
        ((Database.deleteWorkflow?_eq_some hdeleted).1 request hrequest) hdeleted
  | started env workflowId requesterId data workflow first deadline =>
      exact definition_of_sameDefinitions
        (sameDefinitions_startedAt env db workflowId requesterId data first deadline)
  | decided _ _ _ _ _ _ _ _ _ _ _ _ _ hrouted =>
      exact definition_of_sameDefinitions (sameDefinitions_routed hrouted)
  | scanned env =>
      obtain ⟨items, hscanned, -⟩ := scanned_eq_escalated hdb env
      rw [hscanned]
      apply definition_of_sameDefinitions
      have hsame := fun db' (item : SLAMonitor.Positioned) =>
        sameDefinitions_escalateOne env db' item
      refine SLAMonitor.escalated_induction (SameDefinitions db) ?_ ⟨rfl, rfl, rfl, le_rfl⟩
      intro db' item _ hdb'
      exact ⟨(hsame db' item).workflows.trans hdb'.workflows,
        (hsame db' item).workflowSteps.trans hdb'.workflowSteps,
        (hsame db' item).stepTransitions.trans hdb'.stepTransitions,
        hdb'.nextId_le.trans (hsame db' item).nextId_le⟩

/-! ## Reading a definition -/

theorem step?_definition (hdb : WellDefined db) {stepId : Uuid}
    (hstep : db.HasStep workflowId stepId) :
    (db.definition workflowId).step? stepId = db.step? stepId := by
  obtain ⟨step, hfound, hid, hworkflow⟩ := hdb.step?_of_hasStep hstep
  have hmem := (hdb.step?_eq_some_iff.mp hfound).1
  rw [hfound]
  apply (Keyed.find?_eq_some_iff (hdb.step_keys.sublist (List.filter_sublist.map _))).mpr
  exact ⟨List.mem_filter.mpr ⟨hmem, decide_eq_true hworkflow⟩, hid⟩

theorem transitionsFrom_definition {stepId : Uuid} (hstep : db.HasStep workflowId stepId)
    (outcome : String) :
    (db.definition workflowId).transitionsFrom stepId outcome =
      db.transitionsFrom stepId outcome := by
  rw [Definition.transitionsFrom, Database.definition, List.filter_filter,
    Database.transitionsFrom]
  apply List.filter_congr
  intro trans _
  rw [Bool.and_eq_left_iff_imp, any_stepsOf_iff, decide_eq_true_eq]
  intro hleaves
  rw [hleaves.1]
  exact hstep

/-! ## The case of a request -/

theorem caseOf_of_active (hactive : Active db request decided exec) :
    caseOf db request = ⟨request.requestData, decided.map visitRow,
      .waiting exec.stepId exec.startedAt exec.deadline⟩ := by
  have hclosed : (db.executions request.id).filter (·.completedAt.isSome) = decided := by
    rw [hactive.executions_eq, List.filter_append, List.filter_eq_self.mpr hactive.decided_closed]
    simp [hactive.untouched.completedAt_none]
  rw [caseOf, hclosed, openExecutions_of_active hactive]
  rfl

theorem caseOf_of_finished (hfinished : Finished db request) :
    caseOf db request = ⟨request.requestData, (db.executions request.id).map visitRow,
      .closed request.completedAt⟩ := by
  have hnone := (completedShape_of_finished hfinished).2.2.2
  rw [caseOf, List.filter_eq_self.mpr hfinished.executions_closed, hnone]
  rfl

theorem case?_of_mem (hdb : WellFormed db) (hrequest : request ∈ db.workflowRequests) :
    db.case? request.id = some (caseOf db request) := by
  rw [Database.case?, hdb.request?_eq_some_iff.mpr ⟨hrequest, rfl⟩, Option.map_some]

@[simp] theorem visitRow_markedIn (marked : List Uuid) (exec : RequestStep) :
    visitRow (exec.markedIn marked) = visitRow exec := by
  unfold RequestStep.markedIn
  split <;> rfl

@[simp] theorem waitingRow_markedIn (marked : List Uuid) (exec : RequestStep) :
    waitingRow (exec.markedIn marked) = waitingRow exec := by
  unfold RequestStep.markedIn
  split <;> rfl

/-- A request that is left alone keeps its case. -/
theorem case?_leftAlone {call : Call} (hdb : WellFormed db)
    (hrequest : request ∈ db.workflowRequests) (halone : LeftAlone call db db' request) :
    db'.case? request.id = db.case? request.id := by
  rw [Database.case?, halone.request_kept, case?_of_mem hdb hrequest, Option.map_some]
  obtain ⟨marked, hmarked⟩ := halone.executions_marked
  have hkept : ∀ keep : Option DateTime → Bool,
      (db'.executions request.id).filter (fun exec => keep exec.completedAt) =
        ((db.executions request.id).filter fun exec => keep exec.completedAt).map
          (·.markedIn marked) := by
    intro keep
    rw [hmarked, List.filter_map]
    congr 1
    apply List.filter_congr
    intro exec _
    exact congrArg keep (exec.markedIn_completedAt marked)
  have hvisits : visitRow ∘ (·.markedIn marked) = visitRow :=
    funext fun exec => visitRow_markedIn marked exec
  have hwaiting : waitingRow ∘ (·.markedIn marked) = waitingRow :=
    funext fun exec => waitingRow_markedIn marked exec
  simp only [caseOf, Database.openExecutions, hkept Option.isSome, hkept Option.isNone,
    List.map_map, List.head?_map, Option.map_map, hvisits, hwaiting]

/-! ## One call -/

section Ruling

variable {env : Env} {user : User} {outcome : String} {context : Option Dict}

theorem permitted_iff (hdb : WellFormed db) (hactive : Active db request decided exec) :
    (Ruling.mk env user outcome context).permitted (db.definition request.workflowId)
        exec.stepId = true ↔ rbacError db user exec = none := by
  rw [Ruling.permitted, step?_definition hdb.toWellDefined (hdb.hasStep_of_active hactive),
    rbacError]
  obtain ⟨step, hstep, -⟩ := hdb.toWellDefined.step?_of_hasStep (hdb.hasStep_of_active hactive)
  cases hadmin : isAdmin user with
  | true => simp
  | false => simp [hstep]

theorem next_eq_nextStepOf (hdb : WellFormed db) (hactive : Active db request decided exec) :
    (Ruling.mk env user outcome context).next (db.definition request.workflowId)
        request.requestData exec.stepId = nextStepOf env db request outcome context := by
  have hstep := hdb.hasStep_of_active hactive
  rw [Ruling.next, transitionsFrom_definition hstep, nextStepOf, hactive.currentStepId_eq,
    resolveNext, matchingTransitions]
  cases hpick : env.transitionOrder.pick (enabled (evalContext request.requestData context))
      (db.transitionsFrom exec.stepId outcome) with
  | none => rfl
  | some trans =>
      obtain ⟨hmem, -⟩ := RowOrder.pick_some hpick
      simp only [Database.transitionsFrom, List.mem_filter, decide_eq_true_eq] at hmem
      obtain ⟨hstored, hfrom, -⟩ := hmem
      simp only [Option.bind_some]
      cases htarget : trans.toStepId with
      | none => rfl
      | some target =>
          exact step?_definition hdb.toWellDefined
            (hdb.toWellDefined.hasStep_of_transition hstored (hfrom.symm ▸ hstep) htarget)

/-- The decided execution is the visit that the ruling ends. -/
theorem visitRow_closedExecution (huntouched : exec.Untouched) {status : Option StepStatus}
    (hstatus : (decisionOf env exec user outcome context).storedStatus? = some status)
    {stored : StepStatus} (hstored : StepStatus.ofValue? outcome = some stored) :
    visitRow (closedExecution env exec user outcome context status) =
      (Ruling.mk env user outcome context).visit exec.stepId exec.startedAt exec.deadline
        stored := by
  have hvalue := storedStatus?_eq_some hstatus
  have hsame : status.getD exec.status = stored :=
    StepStatus.value_injective (hvalue.trans (StepStatus.ofValue?_eq_some_iff.mp hstored).symm)
  simp only [visitRow, closedExecution, Decision.on, decisionOf, Ruling.visit, hsame,
    huntouched.decisionData_none, Option.or_none]

/-- A decision that commits is the ruling given effect. -/
theorem rule?_of_decided (hdb : WellFormed db) (hrequest : request ∈ db.workflowRequests)
    (hdecided : WorkflowEngine.decided env db request.id user outcome context = some db') :
    ∃ after, db'.case? request.id = some after ∧
      (caseOf db request).rule? (db.definition request.workflowId)
        ⟨env, user, outcome, context⟩ = some after := by
  obtain ⟨exec, status, haccepted, hrouted⟩ := accepted_of_decided hdb hrequest hdecided
  obtain ⟨-, -, decided, hactive⟩ :=
    hdb.active_of_openExecution haccepted.request_read haccepted.execution_open
  have hafter : WellFormed db' := wellFormed_decided hdb hdecided
  have hpermitted : (Ruling.mk env user outcome context).permitted
      (db.definition request.workflowId) exec.stepId = true :=
    (permitted_iff hdb hactive).mpr haccepted.permitted
  obtain ⟨hstored, hstores⟩ := haccepted.stored
  obtain ⟨stored, hstored⟩ := Option.isSome_iff_exists.mp hstored
  have hvisit := visitRow_closedExecution hactive.untouched haccepted.status_stored hstored
  simp only [caseOf_of_active hactive, Case.rule?, hpermitted, hstores, haccepted.audited,
    haccepted.committed, Bool.not_true, Bool.or_false, Bool.false_eq_true, if_false, hstored,
    Option.bind_some, next_eq_nextStepOf hdb hactive]
  cases hrouted with
  | moved nextStep deadline hnext hdeadline =>
      have hmoved := active_movedRequest hdb hactive haccepted.status_stored deadline hnext
      have hmem : movedRequest request nextStep ∈ (movedOn env db request exec user outcome context
          status nextStep deadline).workflowRequests :=
        Keyed.mem_update.mpr (.inl ⟨request, hrequest, rfl, rfl⟩)
      refine ⟨_, (case?_of_mem hafter hmem :), ?_⟩
      rw [caseOf_of_active hmoved, hnext, List.map_append, List.map_singleton, hvisit]
      simp only [hdeadline, Option.map_some]
      rfl
  | finished hnext haudited hvalid =>
      have hfinished := finished_completedRequest hdb hactive haccepted.status_stored hnext
      have hmem : completedRequest env request ∈ (completed env db request exec user outcome context
          status).workflowRequests :=
        Keyed.mem_update.mpr (.inl ⟨request, hrequest, rfl, rfl⟩)
      refine ⟨_, (case?_of_mem hafter hmem :), ?_⟩
      have hexecutions : (completed env db request exec user outcome context status).executions
          request.id = decided ++ [closedExecution env exec user outcome context status] :=
        executions_completed hdb hactive
      rw [caseOf_of_finished hfinished, hnext]
      simp only [haudited, Bool.false_eq_true, if_false]
      rw [completedRequest, RequestUpdate.on_id, hexecutions, List.map_append, List.map_singleton,
        hvisit]
      rfl

/-- A ruling is given effect only where the decision commits. -/
theorem decided_of_rule? (hdb : WellFormed db) (hrequest : request ∈ db.workflowRequests)
    {after : Case} (hrule : (caseOf db request).rule? (db.definition request.workflowId)
      ⟨env, user, outcome, context⟩ = some after) :
    ∃ db', WorkflowEngine.decided env db request.id user outcome context = some db' := by
  rcases hdb.conducted request hrequest with ⟨decided, exec, hactive⟩ | hfinished
  · rw [caseOf_of_active hactive] at hrule
    simp only [Case.rule?, Option.ite_none_left_eq_some, Bool.or_eq_true, not_or,
      Bool.not_eq_true, Bool.not_eq_false', permitted_iff hdb hactive,
      next_eq_nextStepOf hdb hactive, Option.bind_eq_some_iff] at hrule
    obtain ⟨⟨⟨⟨hpermitted, hstores⟩, haudited⟩, hcommitted⟩, stored, hstored, hroute⟩ := hrule
    obtain ⟨status, hstatus⟩ :=
      exists_storedStatus exec user (Option.isSome_of_eq_some hstored) hstores
    have haccepted : Accepted env db request.id user outcome context request exec status := {
      request_read := hdb.request?_eq_some_iff.mpr ⟨hrequest, rfl⟩
      execution_open := WellFormed.openExecution_of_active hactive env.executionOrder
      permitted := hpermitted
      status_stored := hstatus
      audited := haudited
      committed := hcommitted }
    cases hnext : nextStepOf env db request outcome context with
    | some nextStep =>
        simp only [hnext, Option.map_eq_some_iff] at hroute
        obtain ⟨deadline, hdeadline, -⟩ := hroute
        exact ⟨_, decided_iff.mpr
          ⟨request, exec, status, haccepted, .moved nextStep deadline hnext hdeadline⟩⟩
    | none =>
        simp only [hnext, Option.ite_none_left_eq_some, Bool.not_eq_true] at hroute
        exact ⟨_, decided_iff.mpr ⟨request, exec, status, haccepted,
          .finished hnext hroute.1 (hactive.status_eq ▸ verdictOf_follows outcome)⟩⟩
  · rw [caseOf_of_finished hfinished] at hrule
    cases hrule

/-- A decision does to the case what the ruling does. -/
theorem case?_processStep (hdb : WellFormed db) (hrequest : request ∈ db.workflowRequests)
    (ruling : Ruling) :
    ((Call.processStep ruling.env request.id ruling.user ruling.outcome ruling.context).perform
        db).case? request.id =
      some ((caseOf db request).rule (db.definition request.workflowId) ruling) := by
  rw [perform_processStep, Case.rule]
  cases hdecided : WorkflowEngine.decided ruling.env db request.id ruling.user ruling.outcome
      ruling.context with
  | some db' =>
      obtain ⟨after, hcase, hrule⟩ := rule?_of_decided hdb hrequest hdecided
      rw [Option.getD_some, hcase, hrule, Option.getD_some]
  | none =>
      have hrefused : (caseOf db request).rule? (db.definition request.workflowId) ruling =
          none := by
        by_contra hsome
        obtain ⟨after, hrule⟩ := Option.ne_none_iff_exists'.mp hsome
        obtain ⟨db', hdecided'⟩ := decided_of_rule? hdb hrequest hrule
        rw [hdecided] at hdecided'
        cases hdecided'
      rw [Option.getD_none, hrefused, Option.getD_none, case?_of_mem hdb hrequest]

end Ruling

/-- A call is a ruling on the case of a request, or leaves it alone. -/
theorem case?_perform (hdb : WellFormed db) (hrequest : request ∈ db.workflowRequests)
    (call : Call) :
    (call.perform db).case? request.id =
      (((call.rulingOn request.id).map fun ruling => (db.case? request.id).map fun case =>
        case.rule (db.definition request.workflowId) ruling).getD (db.case? request.id)) := by
  have hcase := case?_of_mem hdb hrequest
  by_cases hdecides : call.decides? = some request.id
  · cases call with
    | processStep env requestId user outcome context =>
        obtain rfl : requestId = request.id := Option.some.inj hdecides
        simp only [Call.rulingOn, if_true, Option.map_some, Option.getD_some, hcase]
        exact case?_processStep hdb hrequest ⟨env, user, outcome, context⟩
    | makeDecision env requestId user payload =>
        obtain rfl : requestId = request.id := Option.some.inj hdecides
        rcases makeDecision_cases request.id payload with ⟨outcome, houtcome, heq⟩ |
          ⟨⟨error, herror⟩, heq⟩
        · rw [(heq env db user).1]
          simp only [Call.rulingOn, if_true, houtcome, Except.toOption, Option.map_some,
            Option.getD_some, hcase]
          exact case?_processStep hdb hrequest ⟨env, user, outcome, _⟩
        · rw [(heq env db user).1]
          simp only [Call.rulingOn, if_true, herror, Except.toOption, Option.map_none,
            Option.getD_none]
    | createWorkflow | deleteWorkflow | startWorkflow | scanForBreaches => cases hdecides
  · have hnone : call.rulingOn request.id = none := by
      cases call with
      | processStep | makeDecision =>
          exact if_neg fun heq => hdecides (congrArg some heq)
      | createWorkflow | deleteWorkflow | startWorkflow | scanForBreaches => rfl
    rw [hnone, Option.map_none, Option.getD_none]
    exact case?_leftAlone hdb hrequest ((hdb.keepsRecords call).others request hrequest hdecides)

/-! ## Runs of calls -/

/-- A state in which a request is still there, under the definition it had. -/
structure Holds (request : WorkflowRequest) (definition : Definition) (db : Database) : Prop where
  wellFormed : WellFormed db
  stored : ∃ row ∈ db.workflowRequests, row.id = request.id ∧ row.workflowId = request.workflowId
  defined : db.definition request.workflowId = definition

theorem Holds.perform {definition : Definition} (hholds : Holds request definition db)
    (call : Call) : Holds request definition (call.perform db) where
  wellFormed := wellFormed_perform hholds.wellFormed call
  stored := by
    obtain ⟨row, hrow, hid, hworkflow⟩ := hholds.stored
    obtain ⟨row', hrow', hcarries⟩ :=
      (continues_perform hholds.wellFormed call).requests row hrow
    exact ⟨row', hrow', hcarries.id.trans hid, hcarries.workflowId.trans hworkflow⟩
  defined := by
    obtain ⟨row, hrow, -, hworkflow⟩ := hholds.stored
    rw [← hworkflow, definition_perform hholds.wellFormed hrow, hworkflow]
    exact hholds.defined

/-- A case follows the rulings on it. -/
theorem case?_runCalls (hdb : WellFormed db) (hrequest : request ∈ db.workflowRequests)
    (calls : List Call) :
    (runCalls db calls).case? request.id =
      some (SerialRun.after (Case.rule (db.definition request.workflowId)) (caseOf db request)
        (SerialRun.inputs (Call.rulingOn request.id) calls)) := by
  have hholds : Holds request (db.definition request.workflowId) db :=
    ⟨hdb, ⟨request, hrequest, rfl, rfl⟩, rfl⟩
  have hafter := SerialRun.observe_after (·.case? request.id) (Call.rulingOn request.id)
    (fun part ruling => part.map (·.rule (db.definition request.workflowId) ruling))
    (Holds request (db.definition request.workflowId)) (fun _ call hdb' => hdb'.perform call)
    (fun db' call hdb' => by
      obtain ⟨row, hrow, hid, hworkflow⟩ := hdb'.stored
      have hstep := case?_perform hdb'.wellFormed hrow call
      rw [hid, hworkflow, hdb'.defined] at hstep
      exact hstep) hholds calls
  rw [case?_of_mem hdb hrequest, SerialRun.after_some] at hafter
  exact hafter

/-- After any run of calls, the case of a request that was there before is where the
rulings on it lead, one after the other, under the definition it had. The calls for
other requests, new definitions, deletions and scans make no difference. -/
theorem engine_runs_cases (hreachable : Reachable db) (hrequest : request ∈ db.workflowRequests)
    (calls : List Call) :
    (runCalls db calls).case? request.id =
      some (SerialRun.after (Case.rule (db.definition request.workflowId)) (caseOf db request)
        (SerialRun.inputs (Call.rulingOn request.id) calls)) :=
  case?_runCalls hreachable.wellFormed hrequest calls

namespace Sample

/-- A request at the first of two reviews. -/
def opened : Database := runCalls Database.empty (opening approvals [])

theorem opened_reachable : Reachable opened := ⟨opening approvals [], rfl⟩

theorem opened_inProgress : ∃ request ∈ opened.workflowRequests, request.status = .inProgress := by
  decide +kernel

end Sample

/-- The request is approved while another one is started and a scan runs. -/
theorem engine_runs_cases_approved :
    ∃ request ∈ Sample.opened.workflowRequests,
      (runCalls Sample.opened [.startWorkflow (.calm Sample.noon) 0 0 [], Sample.approval,
          .scanForBreaches (.calm Sample.later)]).case? request.id =
        some (SerialRun.after (Case.rule (Sample.opened.definition request.workflowId))
          (caseOf Sample.opened request) (SerialRun.inputs (Call.rulingOn request.id)
            [.startWorkflow (.calm Sample.noon) 0 0 [], Sample.approval,
              .scanForBreaches (.calm Sample.later)])) := by
  obtain ⟨request, hrequest, -⟩ := Sample.opened_inProgress
  exact ⟨request, hrequest, engine_runs_cases Sample.opened_reachable hrequest _⟩

end WorkflowPlatform
