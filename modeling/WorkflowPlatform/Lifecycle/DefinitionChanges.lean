import WorkflowPlatform.Lifecycle.Definitions

/-! # Definitions that come and go

Creating a definition adds a workflow of its own, and deleting takes one away;
every other workflow keeps its steps and the edges between them.
-/

namespace WorkflowPlatform

open Python WorkflowService

/-- A workflow that a change of the definitions leaves alone. -/
structure KeepsWorkflow (db db' : Database) (workflowId : Uuid) : Prop where
  steps : ∀ step ∈ db.workflowSteps, step.workflowId = workflowId → step ∈ db'.workflowSteps
  edges : ∀ stepId decision target, db.HasStep workflowId stepId →
    ((db.graph workflowId).edge stepId decision target ↔
      (db'.graph workflowId).edge stepId decision target)

theorem SameDefinitions.keepsWorkflow {db db' : Database} (hsame : SameDefinitions db db')
    (workflowId : Uuid) : KeepsWorkflow db db' workflowId where
  steps step hstep _ := hsame.workflowSteps.symm ▸ hstep
  edges _ _ _ _ := by rw [hsame.graph_eq]

namespace KeepsWorkflow

variable {db db' : Database} {workflowId : Uuid}

theorem hasStep (hkeeps : KeepsWorkflow db db' workflowId) {stepId : Uuid}
    (hstep : db.HasStep workflowId stepId) : db'.HasStep workflowId stepId := by
  obtain ⟨step, hmem, hid, hworkflow⟩ := hstep
  exact ⟨step, hkeeps.steps step hmem hworkflow, hid, hworkflow⟩

/-- Journeys through a kept workflow stay journeys. -/
theorem journey (hkeeps : KeepsWorkflow db db' workflowId) (hdb : WellDefined db)
    {log : List (Uuid × (String × Dict))} {current : Option Uuid}
    (hjourney : (db.graph workflowId).Journey log current) :
    (db'.graph workflowId).Journey log current := by
  refine hjourney.congr (db.HasStep workflowId)
    (fun _ => WellDefined.hasStep_of_entry) (hdb.hasStep_of_edge workflowId) ?_ hkeeps.edges
  rintro stepId ⟨step, hmem, hid, hworkflow, horder⟩
  exact ⟨step, hkeeps.steps step hmem hworkflow, hid, hworkflow, horder⟩

end KeepsWorkflow

/-! ## The rows of a new definition -/

namespace WorkflowService

theorem mem_storedSteps {workflowId id : Uuid} {steps : List WorkflowStepCreate}
    {step : WorkflowStep} (hstep : step ∈ storedSteps workflowId id steps) :
    step.workflowId = workflowId ∧ id ≤ step.id ∧ step.id < id + steps.length := by
  induction steps generalizing id with
  | nil => simp [storedSteps] at hstep
  | cons stepData rest ih =>
      rcases List.mem_cons.mp hstep with rfl | hrest
      · exact ⟨rfl, le_rfl, by simp [stepRow]⟩
      · obtain ⟨hworkflow, hle, hlt⟩ := ih hrest
        rw [List.length_cons]
        exact ⟨hworkflow, by lia, by lia⟩

theorem storedSteps_keys (workflowId id : Uuid) (steps : List WorkflowStepCreate) :
    ((storedSteps workflowId id steps).map (·.id)).Nodup := by
  induction steps generalizing id with
  | nil => exact List.nodup_nil
  | cons stepData rest ih =>
      rw [storedSteps, List.map_cons, List.nodup_cons]
      refine ⟨fun hmem => ?_, ih _⟩
      obtain ⟨step, hstep, hid⟩ := List.mem_map.mp hmem
      have hle := (mem_storedSteps hstep).2.1
      rw [hid] at hle
      exact Nat.not_succ_le_self id hle

theorem storedSteps_stepOrder (workflowId id : Uuid) (steps : List WorkflowStepCreate) :
    (storedSteps workflowId id steps).map (·.stepOrder) = steps.map (·.stepOrder) := by
  induction steps generalizing id with
  | nil => rfl
  | cons stepData rest ih => simp [storedSteps, stepRow, ih]

/-- The map of orders names, for an order, a submitted step that has it. -/
theorem lookup_stepsMapOf (workflowId : Uuid) {id : Uuid} {stepsMap : StepsMap}
    {steps : List WorkflowStepCreate} {order : ℤ} {stepId : Uuid}
    (hlookup : (stepsMapOf id stepsMap steps).lookup order = some stepId) :
    stepsMap.lookup order = some stepId ∨
      ∃ step ∈ storedSteps workflowId id steps, step.id = stepId ∧ step.stepOrder = order := by
  induction steps generalizing id stepsMap with
  | nil => exact .inl hlookup
  | cons stepData rest ih =>
      rcases ih hlookup with hhead | ⟨step, hstep, hid, horder⟩
      · rw [List.lookup_cons] at hhead
        split at hhead
        · next heq =>
          cases hhead
          exact .inr ⟨_, List.mem_cons_self, rfl, (eq_of_beq heq).symm⟩
        · exact .inl hhead
      · exact .inr ⟨step, List.mem_cons_of_mem _ hstep, hid, horder⟩

/-- The map knows the orders of the submitted steps. -/
theorem lookup_stepsMapOf_isSome {id : Uuid} {stepsMap : StepsMap}
    {steps : List WorkflowStepCreate} {order : ℤ} :
    ((stepsMapOf id stepsMap steps).lookup order).isSome ↔
      (stepsMap.lookup order).isSome ∨ ∃ stepData ∈ steps, stepData.stepOrder = order := by
  induction steps generalizing id stepsMap with
  | nil => simp [stepsMapOf]
  | cons stepData rest ih =>
      rw [stepsMapOf, ih, List.lookup_cons, List.exists_mem_cons_iff]
      by_cases heq : stepData.stepOrder = order
      · subst heq
        simp
      · have hne : (order == stepData.stepOrder) = false := by simpa using Ne.symm heq
        simp [hne, heq]

theorem mem_numbered {Row : Type} {id : Uuid} {rows : List (Uuid → Row)} {stored : Row}
    (hstored : stored ∈ numbered id rows) : ∃ row ∈ rows, ∃ drawn, stored = row drawn := by
  induction rows generalizing id with
  | nil => simp [numbered] at hstored
  | cons row rest ih =>
      rcases List.mem_cons.mp hstored with rfl | hrest
      · exact ⟨row, List.mem_cons_self, id, rfl⟩
      · obtain ⟨other, hother, drawn, rfl⟩ := ih hrest
        exact ⟨other, List.mem_cons_of_mem _ hother, drawn, rfl⟩

/-- A stored transition joins the steps the map names. -/
theorem mem_storedTransitions {id : Uuid} {stepsMap : StepsMap}
    {transitions : List StepTransitionCreate} {trans : StepTransition}
    (htrans : trans ∈ numbered id (transitions.filterMap (transitionRow? stepsMap))) :
    ∃ transData ∈ transitions, stepsMap.lookup transData.fromStepOrder = some trans.fromStepId ∧
      trans.toStepId = transData.toStepOrder.bind (stepsMap.lookup ·) := by
  obtain ⟨row, hrow, drawn, rfl⟩ := mem_numbered htrans
  obtain ⟨transData, hdata, hrow⟩ := List.mem_filterMap.mp hrow
  obtain ⟨fromStepId, hfrom, rfl⟩ := Option.map_eq_some_iff.mp hrow
  exact ⟨transData, hdata, hfrom, rfl⟩

/-- Every step the map names is a step of the new workflow. -/
theorem hasStep_of_lookup {db : Database} {payload : WorkflowCreate} (creatorId : Uuid)
    {order : ℤ} {stepId : Uuid}
    (hlookup : (stepsMapOf (db.nextId + 1) [] payload.steps).lookup order = some stepId) :
    (withDefinition db payload creatorId).HasStep db.nextId stepId ∧ db.nextId < stepId := by
  rcases lookup_stepsMapOf db.nextId hlookup with hnil | ⟨step, hstep, rfl, -⟩
  · cases hnil
  · obtain ⟨hworkflow, hle, -⟩ := mem_storedSteps hstep
    exact ⟨⟨step, List.mem_append_right _ hstep, rfl, hworkflow⟩, hle⟩

/-! ## Creating -/

theorem hasStep_withDefinition {db : Database} {workflowId stepId : Uuid}
    (hstep : db.HasStep workflowId stepId) (payload : WorkflowCreate) (creatorId : Uuid) :
    (withDefinition db payload creatorId).HasStep workflowId stepId := by
  obtain ⟨step, hmem, hid, hworkflow⟩ := hstep
  exact ⟨step, List.mem_append_left _ hmem, hid, hworkflow⟩

theorem wellDefined_withDefinition {db : Database} (hdb : WellDefined db)
    (payload : WorkflowCreate) (creatorId : Uuid) :
    WellDefined (withDefinition db payload creatorId) where
  workflow_fresh workflow hworkflow := by
    simp only [withDefinition]
    rcases List.mem_append.mp hworkflow with hold | hnew
    · have hlt := hdb.workflow_fresh workflow hold
      lia
    · have hid : workflow.id = db.nextId := by rw [List.mem_singleton.mp hnew, workflowRow]
      lia
  step_keys := by
    simp only [withDefinition, List.map_append]
    apply hdb.step_keys.append (storedSteps_keys _ _ _)
    intro id hold hnew
    obtain ⟨step, hstep, rfl⟩ := List.mem_map.mp hold
    obtain ⟨other, hother, hid⟩ := List.mem_map.mp hnew
    have hlt := hdb.step_fresh step hstep
    have hle := (mem_storedSteps hother).2.1
    lia
  step_fresh step hstep := by
    simp only [withDefinition]
    rcases List.mem_append.mp hstep with hold | hnew
    · have hlt := hdb.step_fresh step hold
      lia
    · have hlt := (mem_storedSteps hnew).2.2
      lia
  step_workflow step hstep := by
    rcases List.mem_append.mp hstep with hold | hnew
    · obtain ⟨workflow, hworkflow, hid⟩ := hdb.step_workflow step hold
      exact ⟨workflow, List.mem_append_left _ hworkflow, hid⟩
    · exact ⟨workflowRow payload creatorId db.nextId,
        List.mem_append_right _ (List.mem_singleton_self _), (mem_storedSteps hnew).1.symm⟩
  transition_within trans htrans := by
    rcases List.mem_append.mp htrans with hold | hnew
    · obtain ⟨workflowId, hsource, htargets⟩ := hdb.transition_within trans hold
      exact ⟨workflowId, hasStep_withDefinition hsource payload creatorId,
        fun target htarget => hasStep_withDefinition (htargets target htarget) payload creatorId⟩
    · obtain ⟨transData, -, hfrom, hto⟩ := mem_storedTransitions hnew
      refine ⟨db.nextId, (hasStep_of_lookup creatorId hfrom).1, fun target htarget => ?_⟩
      rw [hto] at htarget
      obtain ⟨order, -, hlookup⟩ := Option.bind_eq_some_iff.mp htarget
      exact (hasStep_of_lookup creatorId hlookup).1

theorem keepsWorkflow_withDefinition {db : Database} (hdb : WellDefined db)
    (payload : WorkflowCreate) (creatorId workflowId : Uuid) :
    KeepsWorkflow db (withDefinition db payload creatorId) workflowId where
  steps step hstep _ := List.mem_append_left _ hstep
  edges stepId decision target hstep := by
    have hlt := (hdb.hasStep_fresh hstep).1
    have hkept : (withDefinition db payload creatorId).transitionsFrom stepId decision.1 =
        db.transitionsFrom stepId decision.1 := by
      simp only [Database.transitionsFrom, withDefinition, List.filter_append]
      refine List.append_right_eq_self.mpr (List.filter_eq_nil_iff.mpr fun trans htrans => ?_)
      obtain ⟨transData, -, hfrom, -⟩ := mem_storedTransitions htrans
      have hlater := (hasStep_of_lookup creatorId hfrom).2
      simp only [decide_eq_true_eq, not_and]
      intro heq
      lia
    simp only [Database.graph, hkept]

end WorkflowService

/-! ## Deleting -/

namespace Database

variable {db db' : Database} {workflowId : Uuid}

/-- What a deletion asks for, and what it takes away. -/
theorem deleteWorkflow?_eq_some (hdeleted : db.deleteWorkflow? workflowId = some db') :
    (∀ request ∈ db.workflowRequests, request.workflowId ≠ workflowId) ∧
    (∀ exec ∈ db.requestSteps, ¬db.HasStep workflowId exec.stepId) ∧
    db' = { db with
      workflows := db.workflows.filter (·.id ≠ workflowId)
      workflowSteps := db.workflowSteps.filter (·.workflowId ≠ workflowId)
      stepTransitions := db.stepTransitions.filter fun trans =>
        trans.fromStepId ∉ (db.stepsOf workflowId).map (·.id) ∧
          ∀ stepId ∈ trans.toStepId, stepId ∉ (db.stepsOf workflowId).map (·.id)
      workflowRequests := db.workflowRequests.map fun row =>
        { row with currentStepId :=
            row.currentStepId.filter (· ∉ (db.stepsOf workflowId).map (·.id)) } } := by
  simp only [deleteWorkflow?, Option.ite_none_left_eq_some, Bool.or_eq_true, not_or,
    Option.some.injEq, Bool.not_eq_true, List.any_eq_false, decide_eq_true_eq] at hdeleted
  obtain ⟨⟨hrequests, hexecs⟩, rfl⟩ := hdeleted
  refine ⟨hrequests, fun exec hexec hstep => hexecs exec hexec ?_, rfl⟩
  obtain ⟨step, hmem, hid, hworkflow⟩ := hstep
  exact List.mem_map.mpr ⟨step, by simp [stepsOf, hmem, hworkflow], hid⟩

theorem mem_gone_iff {stepId : Uuid} :
    stepId ∈ (db.stepsOf workflowId).map (·.id) ↔ db.HasStep workflowId stepId := by
  simp only [stepsOf, List.mem_map, List.mem_filter, decide_eq_true_eq, HasStep]
  constructor
  · rintro ⟨step, ⟨hmem, hworkflow⟩, hid⟩
    exact ⟨step, hmem, hid, hworkflow⟩
  · rintro ⟨step, hmem, hid, hworkflow⟩
    exact ⟨step, ⟨hmem, hworkflow⟩, hid⟩

/-- A step of another workflow stays. -/
theorem hasStep_deleted {other stepId : Uuid} (hstep : db.HasStep other stepId)
    (hne : other ≠ workflowId) (hdeleted : db.deleteWorkflow? workflowId = some db') :
    db'.HasStep other stepId := by
  obtain ⟨-, -, rfl⟩ := deleteWorkflow?_eq_some hdeleted
  obtain ⟨step, hmem, hid, hworkflow⟩ := hstep
  exact ⟨step, List.mem_filter.mpr ⟨hmem, by simpa [hworkflow] using hne⟩, hid, hworkflow⟩

theorem wellDefined_deleted (hdb : WellDefined db)
    (hdeleted : db.deleteWorkflow? workflowId = some db') : WellDefined db' := by
  have hkept := fun {other stepId} (hstep : db.HasStep other stepId) hne =>
    hasStep_deleted hstep hne hdeleted
  obtain ⟨-, -, rfl⟩ := deleteWorkflow?_eq_some hdeleted
  exact {
    workflow_fresh := fun workflow hworkflow =>
      hdb.workflow_fresh workflow (List.mem_of_mem_filter hworkflow)
    step_keys := hdb.step_keys.sublist (List.filter_sublist.map _)
    step_fresh := fun step hstep => hdb.step_fresh step (List.mem_of_mem_filter hstep)
    step_workflow := by
      intro step hstep
      obtain ⟨hmem, hne⟩ := List.mem_filter.mp hstep
      obtain ⟨workflow, hworkflow, hid⟩ := hdb.step_workflow step hmem
      exact ⟨workflow, List.mem_filter.mpr ⟨hworkflow, by simpa [hid] using hne⟩, hid⟩
    transition_within := by
      intro trans htrans
      obtain ⟨hmem, hstays⟩ := List.mem_filter.mp htrans
      obtain ⟨other, hsource, htargets⟩ := hdb.transition_within trans hmem
      have hne : other ≠ workflowId := by
        rintro rfl
        simp only [mem_gone_iff, decide_eq_true_eq] at hstays
        exact hstays.1 hsource
      exact ⟨other, hkept hsource hne, fun target htarget => hkept (htargets target htarget) hne⟩ }

theorem keepsWorkflow_deleted (hdb : WellDefined db) {other : Uuid} (hne : other ≠ workflowId)
    (hdeleted : db.deleteWorkflow? workflowId = some db') : KeepsWorkflow db db' other := by
  obtain ⟨-, -, rfl⟩ := deleteWorkflow?_eq_some hdeleted
  refine ⟨fun step hstep hworkflow =>
    List.mem_filter.mpr ⟨hstep, by simpa [hworkflow] using hne⟩, ?_⟩
  intro stepId decision target hstep
  have hstays : ∀ {stepId}, db.HasStep other stepId → ¬db.HasStep workflowId stepId :=
    fun hstep hgone => hne (hdb.hasStep_unique hstep hgone)
  simp only [graph, transitionsFrom, List.mem_filter, decide_eq_true_eq, mem_gone_iff]
  constructor
  · rintro ⟨trans, ⟨hmem, rfl, houtcome⟩, henabled, htarget⟩
    refine ⟨trans, ⟨⟨hmem, hstays hstep, fun next hnext => ?_⟩, rfl, houtcome⟩, henabled, htarget⟩
    exact hstays (hdb.hasStep_of_transition hmem hstep hnext)
  · rintro ⟨trans, ⟨⟨hmem, -⟩, hfrom, houtcome⟩, henabled, htarget⟩
    exact ⟨trans, ⟨hmem, hfrom, houtcome⟩, henabled, htarget⟩

end Database

end WorkflowPlatform
