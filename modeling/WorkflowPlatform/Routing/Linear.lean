import WorkflowPlatform.Foundation.Line
import WorkflowPlatform.Lifecycle.Kept
import WorkflowPlatform.Ledger.StateTrail
import WorkflowPlatform.Deciding.Vocabulary

/-! # Linear definitions

A definition is linear when its approvals lead from each step to the one listed
after it, and its rejections to the end. The steps listed from the one with order 1
on are then a line of the workflow's graph; requests go through them in this order.
-/

namespace WorkflowPlatform

open Python WorkflowEngine WorkflowService

/-! ## The map of orders -/

namespace WorkflowService

/-- An order that no further step has keeps its entry. -/
theorem lookup_stepsMapOf_of_notMem {id : Uuid} {stepsMap : StepsMap}
    {steps : List WorkflowStepCreate} {order : ℤ} (hnew : order ∉ steps.map (·.stepOrder)) :
    (stepsMapOf id stepsMap steps).lookup order = stepsMap.lookup order := by
  induction steps generalizing id stepsMap with
  | nil => rfl
  | cons stepData rest ih =>
      rw [List.map_cons, List.mem_cons, not_or] at hnew
      have hne : (order == stepData.stepOrder) = false := by simpa using hnew.1
      rw [stepsMapOf, ih hnew.2, List.lookup_cons, hne]

/-- With distinct orders the map finds every step by its order. -/
theorem lookup_stepsMapOf_of_nodup {workflowId id : Uuid} (stepsMap : StepsMap)
    {steps : List WorkflowStepCreate} (hnodup : (steps.map (·.stepOrder)).Nodup)
    {step : WorkflowStep}
    (hstep : step ∈ storedSteps workflowId id steps) :
    (stepsMapOf id stepsMap steps).lookup step.stepOrder = some step.id := by
  induction steps generalizing id stepsMap with
  | nil => simp [storedSteps] at hstep
  | cons stepData rest ih =>
      rw [List.map_cons, List.nodup_cons] at hnodup
      rcases List.mem_cons.mp hstep with rfl | hrest
      · apply (lookup_stepsMapOf_of_notMem hnodup.1).trans
        simp [stepRow]
      · exact ih _ hnodup.2 hrest

theorem mem_numbered_of_mem {Row : Type} (id : Uuid) {rows : List (Uuid → Row)} {row : Uuid → Row}
    (hrow : row ∈ rows) : ∃ drawn, row drawn ∈ numbered id rows := by
  induction rows generalizing id with
  | nil => cases hrow
  | cons first rest ih =>
      rcases List.mem_cons.mp hrow with rfl | hrest
      · exact ⟨id, List.mem_cons_self⟩
      · obtain ⟨drawn, hdrawn⟩ := ih (id + 1) hrest
        exact ⟨drawn, List.mem_cons_of_mem _ hdrawn⟩

end WorkflowService

/-! ## The graph of a created workflow -/

/-- The workflow is defined as the payload that created it says. -/
def CreatedAs (db : Database) (workflowId : Uuid) (payload : WorkflowCreate) : Prop :=
  DefinedAs db workflowId (storedSteps workflowId (workflowId + 1) payload.steps)
    (numbered (workflowId + 1 + payload.steps.length) (payload.transitions.filterMap
      (transitionRow? (stepsMapOf (workflowId + 1) [] payload.steps))))

/-- Approvals lead from each step to the one listed after it, and from the last to the
end. Rejections lead to the end. -/
structure WorkflowCreate.Linear (payload : WorkflowCreate) : Prop where
  distinct : (payload.steps.map (·.stepOrder)).Nodup
  unguarded : ∀ transData ∈ payload.transitions, transData.conditionConfig = none
  approved : ∀ fromOrder toOrder,
    (∃ transData ∈ payload.transitions, transData.outcome = "APPROVED" ∧
      transData.fromStepOrder = fromOrder ∧ transData.toStepOrder = toOrder) ↔
        (fromOrder, toOrder) ∈ neighbours (payload.steps.map (·.stepOrder))
  rejected : ∀ transData ∈ payload.transitions, transData.outcome = "REJECTED" →
    transData.toStepOrder = none

variable {db : Database} {workflowId : Uuid} {payload : WorkflowCreate}

/-- A request on a workflow finds it as it was created, whatever calls came in
between. -/
theorem createdAs_of_result (hdb : WellFormed db) {env : Env} {creatorId : Uuid}
    (hstored : (Tx.perform (createWorkflow env payload creatorId) db).result = .ok workflowId)
    (calls : List Call) {request : WorkflowRequest}
    (hrequest : request ∈ (runCalls ((Call.createWorkflow env payload creatorId).perform db)
      calls).workflowRequests) (hworkflow : request.workflowId = workflowId) :
    CreatedAs (runCalls ((Call.createWorkflow env payload creatorId).perform db) calls) workflowId
      payload := by
  rcases perform_createWorkflow env payload creatorId db with
    ⟨error, hrefused, -⟩ | ⟨hresult, hstate⟩
  · rw [hrefused] at hstored
    cases hstored
  · obtain rfl : db.nextId = workflowId := Except.ok.inj (hresult.symm.trans hstored)
    rw [Call.perform, hstate] at hrequest ⊢
    exact definedAs_of_created hdb payload creatorId calls hrequest hworkflow

theorem CreatedAs.mem_steps (hcreated : CreatedAs db workflowId payload) {step : WorkflowStep} :
    step ∈ storedSteps workflowId (workflowId + 1) payload.steps ↔
      step ∈ db.workflowSteps ∧ step.workflowId = workflowId := by
  rw [← hcreated.steps_eq, Database.stepsOf, List.mem_filter, decide_eq_true_eq]

theorem CreatedAs.step?_eq (hcreated : CreatedAs db workflowId payload) (hdb : WellFormed db) :
    ∀ step ∈ storedSteps workflowId (workflowId + 1) payload.steps, db.step? step.id = some step :=
  fun _ hstep => hdb.toWellDefined.step?_eq_some_iff.mpr ⟨(hcreated.mem_steps.mp hstep).1, rfl⟩

/-- The edges of a created workflow are the submitted transitions between the steps
that the map of orders names. -/
theorem CreatedAs.edge_iff (hcreated : CreatedAs db workflowId payload) (hlinear : payload.Linear)
    {step : WorkflowStep} (hstep : step ∈ storedSteps workflowId (workflowId + 1) payload.steps)
    {decision : String × Dict} {target : Option Uuid} :
    (db.graph workflowId).edge step.id decision target ↔
      ∃ transData ∈ payload.transitions, transData.fromStepOrder = step.stepOrder ∧
        transData.outcome = decision.1 ∧
        target = transData.toStepOrder.bind
          ((stepsMapOf (workflowId + 1) [] payload.steps).lookup ·) := by
  have hlookup := fun {other : WorkflowStep}
    (hother : other ∈ storedSteps workflowId (workflowId + 1) payload.steps) =>
      lookup_stepsMapOf_of_nodup [] hlinear.distinct hother
  constructor
  · rintro ⟨trans, htrans, -, rfl⟩
    simp only [Database.transitionsFrom, List.mem_filter, decide_eq_true_eq] at htrans
    obtain ⟨hmem, hfrom, houtcome⟩ := htrans
    have hlisted : trans ∈ db.stepTransitions.filter fun trans => trans.fromStepId ∈
        (storedSteps workflowId (workflowId + 1) payload.steps).map (·.id) :=
      List.mem_filter.mpr ⟨hmem, decide_eq_true (hfrom ▸ List.mem_map_of_mem hstep)⟩
    rw [hcreated.transitions_eq] at hlisted
    obtain ⟨row, hrow, drawn, rfl⟩ := mem_numbered hlisted
    obtain ⟨transData, hdata, hrow⟩ := List.mem_filterMap.mp hrow
    obtain ⟨fromStepId, hsource, rfl⟩ := Option.map_eq_some_iff.mp hrow
    refine ⟨transData, hdata, ?_, houtcome, rfl⟩
    -- the step the map names for the source is this one, as it has its identifier
    rcases lookup_stepsMapOf workflowId hsource with hnil | ⟨other, hother, hid, horder⟩
    · cases hnil
    · rw [← horder, Keyed.ext (storedSteps_keys _ _ _) hother hstep (hid.trans hfrom)]
  · rintro ⟨transData, hdata, hfrom, houtcome, rfl⟩
    have hrow : transitionRow? (stepsMapOf (workflowId + 1) [] payload.steps) transData =
        some fun id => ⟨id, step.id, transData.toStepOrder.bind
          ((stepsMapOf (workflowId + 1) [] payload.steps).lookup ·), transData.conditionConfig,
            transData.outcome⟩ := by
      rw [transitionRow?, hfrom, hlookup hstep]
      rfl
    obtain ⟨drawn, hstored⟩ := mem_numbered_of_mem (workflowId + 1 + payload.steps.length)
      (List.mem_filterMap.mpr ⟨transData, hdata, hrow⟩)
    rw [← hcreated.transitions_eq] at hstored
    have hmem : _ ∈ db.stepTransitions := List.mem_of_mem_filter hstored
    refine ⟨_, List.mem_filter.mpr ⟨hmem, ?_⟩, ?_, rfl⟩
    · exact decide_eq_true ⟨rfl, houtcome⟩
    · simp [enabled, hlinear.unguarded transData hdata]

/-- An approval leads from each step to the one stored after it. -/
theorem CreatedAs.edge_of_approved (hcreated : CreatedAs db workflowId payload)
    (hlinear : payload.Linear) {before following : List WorkflowStep} {step : WorkflowStep}
    (hsplit : storedSteps workflowId (workflowId + 1) payload.steps = before ++ step :: following)
    {decision : String × Dict} (happroved : decision.1 = "APPROVED") {target : Option Uuid} :
    (db.graph workflowId).edge step.id decision target ↔
      target = (following.map (·.id)).head? := by
  have hmem : ∀ {other}, other ∈ step :: following → other ∈ storedSteps workflowId (workflowId + 1)
      payload.steps := fun hother => hsplit ▸ List.mem_append_right before hother
  have hlisted : payload.steps.map (·.stepOrder) =
      before.map (·.stepOrder) ++ step.stepOrder :: following.map (·.stepOrder) := by
    rw [← storedSteps_stepOrder workflowId (workflowId + 1), hsplit, List.map_append, List.map_cons]
  -- the order that the neighbour has leads to the neighbour
  have htarget : (following.map (·.stepOrder)).head?.bind
      ((stepsMapOf (workflowId + 1) [] payload.steps).lookup ·) =
        (following.map (·.id)).head? := by
    cases following with
    | nil => rfl
    | cons next further =>
        exact lookup_stepsMapOf_of_nodup [] hlinear.distinct (hmem (by simp))
  rw [hcreated.edge_iff hlinear (hmem List.mem_cons_self), ← htarget]
  constructor
  · rintro ⟨transData, hdata, hfrom, houtcome, rfl⟩
    have hnext := (hlinear.approved _ _).mp
      ⟨transData, hdata, houtcome.trans happroved, hfrom, rfl⟩
    rw [neighbour_unique hlinear.distinct hlisted hnext]
  · rintro rfl
    obtain ⟨transData, hdata, houtcome, hfrom, hto⟩ := (hlinear.approved _ _).mpr
      (mem_neighbours.mpr ⟨_, _, hlisted, rfl⟩)
    exact ⟨transData, hdata, hfrom, houtcome.trans happroved.symm, hto ▸ rfl⟩

/-- A rejection leads to no step. -/
theorem CreatedAs.edge_of_rejected (hcreated : CreatedAs db workflowId payload)
    (hlinear : payload.Linear) {step : WorkflowStep}
    (hstep : step ∈ storedSteps workflowId (workflowId + 1) payload.steps)
    {decision : String × Dict} (hrejected : decision.1 = "REJECTED") {target : Option Uuid}
    (hedge : (db.graph workflowId).edge step.id decision target) : target = none := by
  obtain ⟨transData, hdata, -, houtcome, rfl⟩ := (hcreated.edge_iff hlinear hstep).mp hedge
  rw [hlinear.rejected transData hdata (houtcome.trans hrejected), Option.bind_none]

/-- The steps from the one with order 1 on are a line. -/
theorem CreatedAs.line (hcreated : CreatedAs db workflowId payload) (hlinear : payload.Linear)
    (skipped : List WorkflowStep) {after : List WorkflowStep}
    (hsplit : storedSteps workflowId (workflowId + 1) payload.steps = skipped ++ after)
    (hfirst : ∃ first, after.head? = some first ∧ first.stepOrder = 1) :
    DecisionGraph.Line (db.graph workflowId) (after.map (·.id)) (·.1 = "APPROVED")
      (·.1 = "REJECTED") := by
  have hafter : ∀ {step}, step ∈ after → step ∈ storedSteps workflowId (workflowId + 1)
      payload.steps := fun hstep => hsplit ▸ List.mem_append_right _ hstep
  have horders : ((storedSteps workflowId (workflowId + 1) payload.steps).map
      (·.stepOrder)).Nodup := by
    rw [storedSteps_stepOrder]
    exact hlinear.distinct
  obtain ⟨first, hhead, hone⟩ := hfirst
  exact {
    entry := by
      rintro _ ⟨step, hstep, rfl, hworkflow, horder⟩
      have hstored := hcreated.mem_steps.mpr ⟨hstep, hworkflow⟩
      have hmem := hafter (List.mem_of_head? hhead)
      rw [List.inj_on_of_nodup_map horders hstored hmem (horder.trans hone.symm), List.head?_map,
        hhead, Option.map_some]
    next := by
      intro before node rest hnodes decision happroved target
      obtain ⟨passed, later, rfl, rfl, hlater⟩ := List.map_eq_append_iff.mp hnodes
      obtain ⟨step, following, rfl, rfl, rfl⟩ := List.map_eq_cons_iff.mp hlater
      rw [← List.append_assoc] at hsplit
      exact hcreated.edge_of_approved hlinear hsplit happroved
    halt := by
      intro node hnode decision hrejected next hedge
      obtain ⟨step, hstep, rfl⟩ := List.mem_map.mp hnode
      cases hcreated.edge_of_rejected hlinear (hafter hstep) hrejected hedge }

end WorkflowPlatform
