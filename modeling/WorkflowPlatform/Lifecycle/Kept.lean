import WorkflowPlatform.Lifecycle.Reachable

/-! # Stored definitions stay as they are

Nothing edits a stored workflow. As long as there are requests on it, its steps and
their transitions are the ones it was created with; without requests it can be
deleted, and then there will be none.
-/

namespace WorkflowPlatform

open Python WorkflowEngine

variable {db db' : Database} {workflowId : Uuid} {steps : List WorkflowStep}
  {transitions : List StepTransition}

/-- The steps of a workflow and the transitions that leave them. -/
structure DefinedAs (db : Database) (workflowId : Uuid) (steps : List WorkflowStep)
    (transitions : List StepTransition) : Prop where
  steps_eq : db.stepsOf workflowId = steps
  transitions_eq : (db.stepTransitions.filter fun trans =>
    trans.fromStepId ∈ steps.map (·.id)) = transitions

/-- The workflow is defined as it was, or deleted for good. -/
structure Kept (db : Database) (workflowId : Uuid) (steps : List WorkflowStep)
    (transitions : List StepTransition) : Prop where
  drawn : workflowId < db.nextId
  defined_or_gone : DefinedAs db workflowId steps transitions ∨
    (∀ workflow ∈ db.workflows, workflow.id ≠ workflowId) ∧
      ∀ request ∈ db.workflowRequests, request.workflowId ≠ workflowId

theorem DefinedAs.congr (hdefined : DefinedAs db workflowId steps transitions)
    (hsteps : db'.workflowSteps = db.workflowSteps)
    (htransitions : db'.stepTransitions = db.stepTransitions) :
    DefinedAs db' workflowId steps transitions :=
  ⟨by rw [Database.stepsOf, hsteps]; exact hdefined.steps_eq,
    by rw [htransitions]; exact hdefined.transitions_eq⟩

/-- What leaves the definitions alone and starts no request on the workflow. -/
theorem Kept.of_sameDefinitions (hkept : Kept db workflowId steps transitions)
    (hsame : SameDefinitions db db')
    (hrequests : ∀ request ∈ db'.workflowRequests,
      (∃ before ∈ db.workflowRequests, before.workflowId = request.workflowId) ∨
        ∃ workflow ∈ db.workflows, workflow.id = request.workflowId) :
    Kept db' workflowId steps transitions where
  drawn := hkept.drawn.trans_le hsame.nextId_le
  defined_or_gone := by
    rcases hkept.defined_or_gone with hdefined | ⟨hworkflows, hnone⟩
    · exact .inl (hdefined.congr hsame.workflowSteps hsame.stepTransitions)
    · refine .inr ⟨hsame.workflows.symm ▸ hworkflows, fun request hrequest heq => ?_⟩
      rcases hrequests request hrequest with ⟨before, hbefore, hid⟩ | ⟨workflow, hworkflow, hid⟩
      · exact hnone before hbefore (hid.trans heq)
      · exact hworkflows workflow hworkflow (hid.trans heq)

/-! ## Changing the definitions -/

/-- The steps of a definition are steps of the workflow. -/
theorem DefinedAs.hasStep (hdefined : DefinedAs db workflowId steps transitions) {stepId : Uuid}
    (hstep : stepId ∈ steps.map (·.id)) : db.HasStep workflowId stepId := by
  rw [← hdefined.steps_eq] at hstep
  exact Database.mem_gone_iff.mp hstep

theorem DefinedAs.withDefinition (hdb : WellDefined db) (hdrawn : workflowId < db.nextId)
    (hdefined : DefinedAs db workflowId steps transitions) (payload : WorkflowCreate)
    (creatorId : Uuid) :
    DefinedAs (WorkflowService.withDefinition db payload creatorId) workflowId steps
      transitions where
  steps_eq := by
    apply (List.filter_append _ _).trans
    refine (List.append_right_eq_self.mpr (List.filter_eq_nil_iff.mpr ?_)).trans hdefined.steps_eq
    intro step hstep
    simp [(WorkflowService.mem_storedSteps hstep).1, hdrawn.ne']
  transitions_eq := by
    apply (List.filter_append _ _).trans
    refine (List.append_right_eq_self.mpr (List.filter_eq_nil_iff.mpr ?_)).trans
      hdefined.transitions_eq
    intro trans htrans
    obtain ⟨transData, -, hfrom, -⟩ := WorkflowService.mem_storedTransitions htrans
    have hlater := (WorkflowService.hasStep_of_lookup creatorId hfrom).2
    rw [decide_eq_true_eq]
    intro hmem
    exact absurd (hdb.hasStep_fresh (hdefined.hasStep hmem)).1 (Nat.lt_asymm hlater)

/-- Deleting another workflow takes nothing from this one. -/
theorem DefinedAs.deleted (hdb : WellDefined db)
    (hdefined : DefinedAs db workflowId steps transitions) {other : Uuid} (hne : workflowId ≠ other)
    (hdeleted : db.deleteWorkflow? other = some db') :
    DefinedAs db' workflowId steps transitions := by
  obtain ⟨-, -, rfl⟩ := Database.deleteWorkflow?_eq_some hdeleted
  refine ⟨?_, ?_⟩
  · refine List.filter_filter.trans (Eq.trans ?_ hdefined.steps_eq)
    apply List.filter_congr
    intro step _
    by_cases heq : step.workflowId = workflowId
    · simp [heq, hne]
    · simp [heq]
  · refine List.filter_filter.trans (Eq.trans ?_ hdefined.transitions_eq)
    apply List.filter_congr
    intro trans htrans
    by_cases hsource : trans.fromStepId ∈ steps.map (·.id)
    · have hfrom := hdefined.hasStep hsource
      have hstays : ∀ {stepId}, db.HasStep workflowId stepId →
          stepId ∉ (db.stepsOf other).map (·.id) := fun hstep hgone =>
        hne (hdb.hasStep_unique hstep (Database.mem_gone_iff.mp hgone))
      have hkept : ∀ stepId ∈ trans.toStepId, stepId ∉ (db.stepsOf other).map (·.id) :=
        fun stepId htarget => hstays (hdb.hasStep_of_transition htrans hfrom htarget)
      rw [decide_eq_true hsource, decide_eq_true ⟨hstays hfrom, hkept⟩]
      rfl
    · simp [hsource]

/-! ## Every call -/

theorem workflowId_routed {env : Env} {user : User} {outcome : String} {context : Option Dict}
    {request : WorkflowRequest} {exec : RequestStep} {status : Option StepStatus}
    (hrouted : Routed env db user outcome context request exec status db') :
    ∀ row ∈ db'.workflowRequests, ∃ before ∈ db.workflowRequests,
      before.workflowId = row.workflowId := by
  intro row hrow
  cases hrouted with
  | moved nextStep deadline hnext hdeadline =>
      rcases Keyed.mem_update.mp hrow with ⟨before, hbefore, -, rfl⟩ | ⟨hold, -⟩
      · exact ⟨before, hbefore, rfl⟩
      · exact ⟨row, hold, rfl⟩
  | finished hnext haudited hvalid =>
      rcases Keyed.mem_update.mp hrow with ⟨before, hbefore, -, rfl⟩ | ⟨hold, -⟩
      · exact ⟨before, hbefore, rfl⟩
      · exact ⟨row, hold, rfl⟩

theorem kept_perform (hdb : WellFormed db) (hkept : Kept db workflowId steps transitions)
    (call : Call) : Kept (call.perform db) workflowId steps transitions := by
  have heffect := hdb.effect_perform call
  generalize call.perform db = db' at heffect ⊢
  cases heffect with
  | refused => exact hkept
  | defined env payload creatorId =>
      refine ⟨hkept.drawn.trans_le (Nat.le_add_right_of_le (Nat.le_add_right_of_le
        (Nat.le_succ _))), ?_⟩
      rcases hkept.defined_or_gone with hdefined | ⟨hworkflows, hnone⟩
      · exact .inl (hdefined.withDefinition hdb.toWellDefined hkept.drawn payload creatorId)
      · refine .inr ⟨fun workflow hworkflow => ?_, hnone⟩
        rcases List.mem_append.mp hworkflow with hold | hnew
        · exact hworkflows workflow hold
        · rw [List.mem_singleton.mp hnew]
          exact hkept.drawn.ne'
  | deleted env other db' hdeleted =>
      have hrequests := workflowRequests_deleted hdb hdeleted
      obtain ⟨hunused, -, hdb'⟩ := Database.deleteWorkflow?_eq_some hdeleted
      have hworkflows : db'.workflows = db.workflows.filter (·.id ≠ other) := by rw [hdb']
      refine ⟨by rw [hdb']; exact hkept.drawn, ?_⟩
      by_cases heq : workflowId = other
      · -- the workflow itself goes, and no request is on it
        subst heq
        refine .inr ⟨fun workflow hworkflow => ?_, hrequests.symm ▸ hunused⟩
        rw [hworkflows] at hworkflow
        simpa using (List.mem_filter.mp hworkflow).2
      · rcases hkept.defined_or_gone with hdefined | ⟨hgone, hnone⟩
        · exact .inl (hdefined.deleted hdb.toWellDefined heq hdeleted)
        · refine .inr ⟨fun workflow hworkflow => ?_, hrequests.symm ▸ hnone⟩
          rw [hworkflows] at hworkflow
          exact hgone workflow (List.mem_of_mem_filter hworkflow)
  | started env startedId requesterId data workflow first deadline hworkflow hfirst hdeadline =>
      obtain ⟨hmem, hid, -⟩ := activeWorkflow_spec hworkflow
      refine hkept.of_sameDefinitions (sameDefinitions_startedAt env db startedId requesterId data
        first deadline) fun request hrequest => ?_
      rcases List.mem_append.mp hrequest with hold | hnew
      · exact .inl ⟨request, hold, rfl⟩
      · rw [List.mem_singleton.mp hnew]
        exact .inr ⟨workflow, hmem, hid⟩
  | decided _ requestId user outcome context request exec status db' _ _ _ haccepted hrouted =>
      exact hkept.of_sameDefinitions (sameDefinitions_routed hrouted) fun row hrow =>
        .inl (workflowId_routed hrouted row hrow)
  | scanned env =>
      obtain ⟨items, hscanned, -, -⟩ := scanned_eq_escalated hdb env
      rw [hscanned]
      exact SLAMonitor.escalated_induction (fun db => Kept db workflowId steps transitions)
        (fun db item _ hkept => hkept.of_sameDefinitions (sameDefinitions_escalateOne env db item)
          fun request hrequest => .inl ⟨request, hrequest, rfl⟩) hkept

theorem kept_runCalls (hdb : WellFormed db) (hkept : Kept db workflowId steps transitions)
    (calls : List Call) : Kept (runCalls db calls) workflowId steps transitions := by
  induction calls generalizing db with
  | nil => exact hkept
  | cons call rest ih => exact ih (wellFormed_perform hdb call) (kept_perform hdb hkept call)

/-- The rows a definition adds are its steps and transitions. -/
theorem definedAs_withDefinition (hdb : WellDefined db) (payload : WorkflowCreate)
    (creatorId : Uuid) :
    DefinedAs (WorkflowService.withDefinition db payload creatorId) db.nextId
      (WorkflowService.storedSteps db.nextId (db.nextId + 1) payload.steps)
      (WorkflowService.numbered (db.nextId + 1 + payload.steps.length)
        (payload.transitions.filterMap (WorkflowService.transitionRow?
          (WorkflowService.stepsMapOf (db.nextId + 1) [] payload.steps)))) where
  steps_eq := by
    apply (List.filter_append _ _).trans
    rw [List.filter_eq_nil_iff.mpr, List.nil_append, List.filter_eq_self.mpr]
    · intro step hstep
      exact decide_eq_true (WorkflowService.mem_storedSteps hstep).1
    · intro step hstep
      have hfresh := hdb.hasStep_fresh ⟨step, hstep, rfl, rfl⟩
      simpa using hfresh.2.ne
  transitions_eq := by
    apply (List.filter_append _ _).trans
    rw [List.filter_eq_nil_iff.mpr, List.nil_append, List.filter_eq_self.mpr]
    · intro trans htrans
      obtain ⟨transData, -, hfrom, -⟩ := WorkflowService.mem_storedTransitions htrans
      rcases WorkflowService.lookup_stepsMapOf db.nextId hfrom with hnil | ⟨step, hstep, hid, -⟩
      · cases hnil
      · exact decide_eq_true (hid ▸ List.mem_map_of_mem hstep)
    · intro trans htrans
      obtain ⟨other, hsource, -⟩ := hdb.transition_within trans htrans
      rw [decide_eq_true_eq]
      intro hmem
      obtain ⟨step, hstep, hid⟩ := List.mem_map.mp hmem
      have hle := (WorkflowService.mem_storedSteps hstep).2.1
      have hlt := (hdb.hasStep_fresh hsource).1
      lia

/-- A request on a stored workflow finds it as it was created, whatever calls came in
between. -/
theorem definedAs_of_created (hdb : WellFormed db) (payload : WorkflowCreate) (creatorId : Uuid)
    (calls : List Call) {request : WorkflowRequest}
    (hrequest : request ∈ (runCalls (WorkflowService.withDefinition db payload creatorId)
      calls).workflowRequests) (hworkflow : request.workflowId = db.nextId) :
    DefinedAs (runCalls (WorkflowService.withDefinition db payload creatorId) calls) db.nextId
      (WorkflowService.storedSteps db.nextId (db.nextId + 1) payload.steps)
      (WorkflowService.numbered (db.nextId + 1 + payload.steps.length)
        (payload.transitions.filterMap (WorkflowService.transitionRow?
          (WorkflowService.stepsMapOf (db.nextId + 1) [] payload.steps)))) := by
  have hdrawn : db.nextId < (WorkflowService.withDefinition db payload creatorId).nextId := by
    simp only [WorkflowService.withDefinition]
    lia
  have hkept := kept_runCalls (wellFormed_withDefinition hdb payload creatorId)
    ⟨hdrawn, .inl (definedAs_withDefinition hdb.toWellDefined payload creatorId)⟩ calls
  rcases hkept.defined_or_gone with hdefined | ⟨-, hnone⟩
  · exact hdefined
  · exact absurd hworkflow (hnone request hrequest)

end WorkflowPlatform
