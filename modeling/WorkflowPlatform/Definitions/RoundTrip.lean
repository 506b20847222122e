import WorkflowPlatform.Lifecycle.Kept
import WorkflowPlatform.Lifecycle.StoredGraph

/-! # Reading a definition back

A stored definition is read with its steps by order and their transitions by
identifier. It is the one that was submitted, but for one field: every definition is
stored as an active one.
-/

namespace WorkflowPlatform

open Python Tx WorkflowService WorkflowEngine

/-! ## What is read -/

structure StepTransitionSchema where
  id : Uuid
  fromStepId : Uuid
  toStepId : Option Uuid
  conditionConfig : Option Dict
  outcome : String

/-- The fields that a step has before and after it is stored. -/
structure WorkflowStepBase where
  name : String
  description : Option String
  stepOrder : ℤ
  slaHours : ℕ
  requiredRoleId : Option Uuid
  requiredPermissionId : Option Uuid
  isConditional : Bool
  conditionConfig : Option Dict

structure WorkflowStepSchema extends WorkflowStepBase where
  id : Uuid
  workflowId : Uuid
  transitionsFrom : List StepTransitionSchema

structure WorkflowSchema where
  id : Uuid
  name : String
  description : Option String
  isActive : Bool
  steps : List WorkflowStepSchema

def WorkflowStepCreate.base (stepData : WorkflowStepCreate) : WorkflowStepBase where
  name := stepData.name
  description := stepData.description
  stepOrder := stepData.stepOrder
  slaHours := stepData.slaHours
  requiredRoleId := stepData.requiredRoleId
  requiredPermissionId := stepData.requiredPermissionId
  isConditional := stepData.isConditional
  conditionConfig := stepData.conditionConfig

def transitionSchema (row : StepTransition) : StepTransitionSchema where
  id := row.id
  fromStepId := row.fromStepId
  toStepId := row.toStepId
  conditionConfig := row.conditionConfig
  outcome := row.outcome

/-- A step with the transitions that leave it, as their rows come. -/
def stepSchema (env : Env) (db : Database) (row : WorkflowStep) : WorkflowStepSchema where
  name := row.name
  description := row.description
  stepOrder := row.stepOrder
  slaHours := row.slaHours
  requiredRoleId := row.requiredRoleId
  requiredPermissionId := row.requiredPermissionId
  isConditional := row.isConditional
  conditionConfig := row.conditionConfig
  id := row.id
  workflowId := row.workflowId
  transitionsFrom := (env.transitionOrder.rows
    (db.stepTransitions.filter (·.fromStepId = row.id))).map transitionSchema

/-- The `steps` of a workflow, which the relationship orders by `step_order`. -/
def orderedSteps (env : Env) (db : Database) (workflowId : Uuid) : List WorkflowStep :=
  (env.stepOrder.rows (db.stepsOf workflowId)).mergeSort fun first second =>
    first.stepOrder ≤ second.stepOrder

def workflowSchema (env : Env) (db : Database) (row : Workflow) : WorkflowSchema where
  id := row.id
  name := row.name
  description := row.description
  isActive := row.isActive
  steps := (orderedSteps env db row.id).map (stepSchema env db)

/-- `GET /workflows/{id}`. -/
def Endpoint.readWorkflow (env : Env) (workflowId : Uuid) : EngineTx WorkflowSchema := do
  let workflow ← getWorkflow workflowId
  query (workflowSchema env · workflow)

/-! ## What was submitted -/

/-- The order of a step that is read. -/
def WorkflowSchema.orderOf (schema : WorkflowSchema) (stepId : Uuid) : Option ℤ :=
  (schema.steps.find? (·.id = stepId)).map (·.stepOrder)

/-- The order of a target. A transition to the end has none. -/
def WorkflowSchema.targetOrderOf (schema : WorkflowSchema) : Option Uuid → Option (Option ℤ)
  | none => some none
  | some stepId => (schema.orderOf stepId).map some

/-- A transition that is read, with orders in place of identifiers. -/
def WorkflowSchema.submitted? (schema : WorkflowSchema) (edge : StepTransitionSchema) :
    Option StepTransitionCreate := do
  let fromStepOrder ← schema.orderOf edge.fromStepId
  let toStepOrder ← schema.targetOrderOf edge.toStepId
  return ⟨fromStepOrder, toStepOrder, edge.outcome, edge.conditionConfig⟩

/-- What is read is what was submitted, the steps in their order and the transitions in any. -/
structure ReadsBack (payload : WorkflowCreate) (schema : WorkflowSchema) : Prop where
  name : schema.name = payload.name
  description : schema.description = payload.description
  isActive : schema.isActive = payload.isActive
  steps : (schema.steps.map (·.toWorkflowStepBase)).Perm (payload.steps.map (·.base))
  ordered : (schema.steps.map (·.stepOrder)).Pairwise (· < ·)
  transitions : ((schema.steps.flatMap (·.transitionsFrom)).map schema.submitted?).Perm
    (payload.transitions.map some)

/-- A stored definition reads as it was submitted, and starts only if it was submitted as an
active one. -/
structure RoundTrips (payload : WorkflowCreate) (db : Database) (workflowId : Uuid) : Prop where
  reads : ∀ env, ∃ schema,
    (Tx.perform (Endpoint.readWorkflow env workflowId) db).result = .ok schema ∧
      ReadsBack payload schema
  startsActive : payload.isActive = false → ∀ env requesterId data,
    (Call.startWorkflow env workflowId requesterId data).accepted db = false

/-! ## A workflow as it is defined -/

section Defined

variable {db : Database} {workflow : Workflow} {steps : List WorkflowStep}
  {transitions : List StepTransition} (env : Env)

/-- The steps that are read are the stored ones in another order. -/
theorem orderedSteps_perm (hdefined : DefinedAs db workflow.id steps transitions) :
    (orderedSteps env db workflow.id).Perm steps :=
  (List.mergeSort_perm _ _).trans ((env.stepOrder.perm _).trans (.of_eq hdefined.steps_eq))

theorem orderedSteps_ordered (hdefined : DefinedAs db workflow.id steps transitions)
    (hdistinct : (steps.map (·.stepOrder)).Nodup) :
    ((orderedSteps env db workflow.id).map (·.stepOrder)).Pairwise (· < ·) := by
  have hsorted : ((orderedSteps env db workflow.id).map (·.stepOrder)).Pairwise (· ≤ ·) := by
    rw [List.pairwise_map]
    refine (List.pairwise_mergeSort ?_ ?_ _).imp fun hle => of_decide_eq_true hle
    · intro first second third
      simpa using Int.le_trans
    · intro first second
      simpa using Int.le_total _ _
  -- two steps of one order may come in any order, and there are none
  have hnodup : ((orderedSteps env db workflow.id).map (·.stepOrder)).Nodup :=
    ((orderedSteps_perm env hdefined).map _).nodup_iff.mpr hdistinct
  exact hsorted.imp₂ (fun _ _ hle hne => lt_of_le_of_ne hle hne) hnodup

/-- The transitions that are read are the stored ones in another order. -/
theorem transitions_perm (hdefined : DefinedAs db workflow.id steps transitions)
    (hkeys : (steps.map (·.id)).Nodup) :
    ((workflowSchema env db workflow).steps.flatMap (·.transitionsFrom)).Perm
      (transitions.map transitionSchema) := by
  have hperm := orderedSteps_perm env hdefined
  have hids : ((orderedSteps env db workflow.id).map (·.id)).Nodup :=
    (hperm.map _).nodup_iff.mpr hkeys
  -- a transition is read once, with the step it leaves
  have hgroups : ((orderedSteps env db workflow.id).flatMap fun step =>
      db.stepTransitions.filter (·.fromStepId = step.id)).Perm transitions := by
    have hcollected := @Keyed.flatMap_filter_perm _ _ _ StepTransition.fromStepId _ hids
      db.stepTransitions
    rw [List.flatMap_map] at hcollected
    refine hcollected.trans (.of_eq ?_)
    rw [← hdefined.transitions_eq]
    exact List.filter_congr fun edge _ => by simp only [(hperm.map (·.id)).mem_iff]
  rw [workflowSchema, List.flatMap_map]
  refine .trans ?_ (hgroups.map transitionSchema)
  rw [List.map_flatMap]
  apply List.Perm.flatMap_left _
  intro step _
  exact (env.transitionOrder.perm _).map transitionSchema

/-- A step that is read has its own order. -/
theorem orderOf_eq (hdefined : DefinedAs db workflow.id steps transitions)
    (hkeys : (steps.map (·.id)).Nodup) {step : WorkflowStep} (hstep : step ∈ steps) :
    (workflowSchema env db workflow).orderOf step.id = some step.stepOrder := by
  have hperm := orderedSteps_perm env hdefined
  have hids : ((workflowSchema env db workflow).steps.map (·.id)).Nodup := by
    rw [workflowSchema, List.map_map]
    exact (hperm.map _).nodup_iff.mpr hkeys
  have hread : stepSchema env db step ∈ (workflowSchema env db workflow).steps :=
    List.mem_map_of_mem (hperm.mem_iff.mpr hstep)
  have hfound : (workflowSchema env db workflow).steps.find? (·.id = step.id) =
      some (stepSchema env db step) :=
    (Keyed.find?_eq_some_iff hids).mpr ⟨hread, rfl⟩
  rw [WorkflowSchema.orderOf, hfound]
  rfl

/-- A transition that joins the steps a submitted one names reads as that one. -/
theorem submitted?_eq (hdefined : DefinedAs db workflow.id steps transitions)
    (hkeys : (steps.map (·.id)).Nodup) {submitted : StepTransitionCreate} {stored : StepTransition}
    (hjoins : Joins steps submitted stored)
    (htarget : stored.toStepId = none ↔ submitted.toStepOrder = none) :
    (workflowSchema env db workflow).submitted? (transitionSchema stored) = some submitted := by
  obtain ⟨source, hsource, hfrom, hsourceOrder⟩ := hjoins.source
  have hfromOrder := orderOf_eq env hdefined hkeys hsource
  rw [hfrom, hsourceOrder] at hfromOrder
  have htoOrder : (workflowSchema env db workflow).targetOrderOf stored.toStepId =
      some submitted.toStepOrder := by
    cases hto : stored.toStepId with
    | none => rw [htarget.mp hto, WorkflowSchema.targetOrderOf]
    | some stepId =>
        obtain ⟨target, hmem, rfl, horder⟩ := hjoins.target stepId hto
        rw [WorkflowSchema.targetOrderOf, orderOf_eq env hdefined hkeys hmem, horder,
          Option.map_some]
  simp only [WorkflowSchema.submitted?, transitionSchema, hfromOrder, htoOrder, hjoins.outcome,
    hjoins.conditionConfig]
  rfl

theorem map_submitted?_perm (hdefined : DefinedAs db workflow.id steps transitions)
    (hkeys : (steps.map (·.id)).Nodup) {submitted : List StepTransitionCreate}
    (hstored : StoresSubmitted steps submitted transitions) :
    (((workflowSchema env db workflow).steps.flatMap (·.transitionsFrom)).map
      (workflowSchema env db workflow).submitted?).Perm (submitted.map some) := by
  refine ((transitions_perm env hdefined hkeys).map _).trans (.of_eq ?_)
  rw [List.map_map, ← List.forall₂_eq_eq_eq, List.forall₂_map_left_iff, List.forall₂_map_right_iff]
  refine List.Forall₂.imp ?_ hstored.flip
  rintro stored submitted ⟨hjoins, htarget⟩
  exact submitted?_eq env hdefined hkeys hjoins htarget

end Defined

/-! ## A definition as it is stored -/

section Stored

variable {db : Database} {payload : WorkflowCreate} {creatorId : Uuid}

/-- The transitions of a payload name orders that its steps have. -/
def WorkflowCreate.NamesOrders (payload : WorkflowCreate) : Prop :=
  ∀ transData ∈ payload.transitions, payload.HasOrder transData.fromStepOrder ∧
    ∀ order ∈ transData.toStepOrder, payload.HasOrder order

/-- Where the transitions name orders of steps, each is stored between the steps it names. -/
theorem storesSubmitted_of_names (hnames : payload.NamesOrders) (db : Database) :
    StoresSubmitted (storedSteps db.nextId (db.nextId + 1) payload.steps) payload.transitions
      (numbered (db.nextId + 1 + payload.steps.length) (payload.transitions.filterMap
        (transitionRow? (stepsMapOf (db.nextId + 1) [] payload.steps)))) := by
  have hjoins := @joins_numbered db payload payload.transitions
    (db.nextId + 1 + payload.steps.length)
  rw [List.filter_eq_self.mpr fun transData htrans => by simpa using (hnames transData htrans).1]
    at hjoins
  have hboth := (List.forall₂_and_left _ _).mpr ⟨hnames, hjoins⟩
  refine List.Forall₂.imp ?_ hboth
  rintro submitted stored ⟨⟨-, htargets⟩, hjoined, hnone⟩
  refine ⟨hjoined, hnone.trans ⟨fun hmissing => ?_, fun hend => by simp [hend]⟩⟩
  rw [Option.eq_none_iff_forall_not_mem]
  exact fun order horder => hmissing order horder (htargets order horder)

theorem map_base_storedSteps (env : Env) (db : Database) (workflowId id : Uuid)
    (steps : List WorkflowStepCreate) :
    (storedSteps workflowId id steps).map (fun row => (stepSchema env db row).toWorkflowStepBase) =
      steps.map (·.base) := by
  induction steps generalizing id with
  | nil => rfl
  | cons stepData rest ih =>
      rw [storedSteps, List.map_cons, List.map_cons, ih]
      rfl

theorem workflow?_withDefinition (hdb : WellDefined db) :
    (withDefinition db payload creatorId).workflow? db.nextId =
      some (workflowRow payload creatorId db.nextId) := by
  have hfresh : db.workflows.find? (·.id = db.nextId) = none :=
    List.find?_eq_none.mpr fun workflow hworkflow => by
      simpa using (hdb.workflow_fresh workflow hworkflow).ne
  rw [Database.workflow?, withDefinition, List.find?_append, hfresh]
  simp [workflowRow]

/-- All that was submitted is read back, except that the definition is active. -/
theorem readsBack_stored (hdb : WellDefined db)
    (hdistinct : (payload.steps.map (·.stepOrder)).Nodup) (hnames : payload.NamesOrders)
    (env : Env) :
    ReadsBack { payload with isActive := true } (workflowSchema env
      (withDefinition db payload creatorId) (workflowRow payload creatorId db.nextId)) := by
  have hdefined : DefinedAs (withDefinition db payload creatorId)
    (workflowRow payload creatorId db.nextId).id _ _ :=
      definedAs_withDefinition hdb payload creatorId
  have hkeys := storedSteps_keys db.nextId (db.nextId + 1) payload.steps
  refine ⟨rfl, rfl, rfl, ?_, ?_, ?_⟩
  · have hperm := (orderedSteps_perm env hdefined).map fun row =>
      (stepSchema env (withDefinition db payload creatorId) row).toWorkflowStepBase
    rw [map_base_storedSteps] at hperm
    rw [workflowSchema, List.map_map]
    exact hperm
  · have hordered := orderedSteps_ordered env hdefined (by rwa [storedSteps_stepOrder])
    rw [workflowSchema, List.map_map]
    exact hordered
  · exact map_submitted?_perm env hdefined hkeys (storesSubmitted_of_names hnames db)

end Stored

/-! ## Active definitions round-trip -/

/-- A definition whose creation succeeds round-trips exactly if it was submitted as an active
one. -/
theorem definition_round_trip_iff {db : Database} (hreachable : Reachable db) (env : Env)
    (payload : WorkflowCreate) (creatorId : Uuid)
    (hdistinct : (payload.steps.map (·.stepOrder)).Nodup) (hnames : payload.NamesOrders)
    {workflowId : Uuid}
    (hcreated : (Tx.perform (createWorkflow env payload creatorId) db).result = .ok workflowId) :
    RoundTrips payload ((Call.createWorkflow env payload creatorId).perform db) workflowId ↔
      payload.isActive = true := by
  have hdb := hreachable.wellFormed.toWellDefined
  rcases perform_createWorkflow env payload creatorId db with
    ⟨error, hrefused, -⟩ | ⟨hresult, hstate⟩
  · rw [hrefused] at hcreated
    cases hcreated
  obtain rfl : db.nextId = workflowId := Except.ok.inj (hresult.symm.trans hcreated)
  rw [Call.perform, hstate]
  have hread : ∀ env, (Tx.perform (Endpoint.readWorkflow env db.nextId)
      (withDefinition db payload creatorId)).result = .ok (workflowSchema env
        (withDefinition db payload creatorId) (workflowRow payload creatorId db.nextId)) := by
    intro env
    simp [Tx.perform, Endpoint.readWorkflow, getWorkflow, Session.begin,
      workflow?_withDefinition hdb]
  constructor
  · -- what is read is active, whatever was submitted
    intro htrips
    obtain ⟨schema, hschema, hback⟩ := htrips.reads env
    obtain rfl := Except.ok.inj ((hread env).symm.trans hschema)
    exact hback.isActive.symm
  · intro hactive
    have hsame : { payload with isActive := true } = payload := by
      rw [← hactive]
    refine ⟨fun env => ⟨_, hread env, ?_⟩, fun hinactive => ?_⟩
    · exact hsame ▸ readsBack_stored hdb hdistinct hnames env
    · rw [hactive] at hinactive
      cases hinactive

/-! ### Two reviews, submitted as inactive -/

namespace Sample

/-- The definition of `approvals`, to be activated later. -/
def inactive : WorkflowCreate := { approvals with isActive := false }

end Sample

theorem definition_round_trip_iff_approvals :
    RoundTrips Sample.approvals
      ((Call.createWorkflow (.calm Sample.noon) Sample.approvals 0).perform Database.empty) 0 ↔
        Sample.approvals.isActive = true :=
  definition_round_trip_iff ⟨[], rfl⟩ (.calm Sample.noon) Sample.approvals 0 (by decide)
    (by unfold WorkflowCreate.NamesOrders; decide) rfl

/-- The inactive definition is stored as an active one, and a request for it is started. -/
theorem inactive_definition_starts :
    ¬∀ db, Reachable db → ∀ env payload creatorId workflowId,
      (payload.steps.map (·.stepOrder)).Nodup → payload.NamesOrders →
        (Tx.perform (createWorkflow env payload creatorId) db).result = .ok workflowId →
          RoundTrips payload ((Call.createWorkflow env payload creatorId).perform db)
            workflowId := by
  intro htrips
  have hinactive := htrips Database.empty ⟨[], rfl⟩ (.calm Sample.noon) Sample.inactive 0 0
    (by decide) (by unfold WorkflowCreate.NamesOrders; decide) rfl
  have hrefused := hinactive.startsActive rfl (.calm Sample.noon) 0 []
  revert hrefused
  decide +kernel

end WorkflowPlatform
