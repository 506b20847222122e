import WorkflowPlatform.Client.Blueprint
import WorkflowPlatform.Routing.Passage

/-! # The order of a blueprint

The pages link the steps of a blueprint as it lists them, and a request enters at
the step with order 1. It goes through the steps listed from there on; these are all
the steps in their order only where the blueprint lists them in their order.
-/

namespace WorkflowPlatform

open Python WorkflowEngine WorkflowService

/-- A stored step is the one the blueprint has. -/
structure BlueprintStep.Fits (s : BlueprintStep) (row : WorkflowStep) : Prop where
  name : s.name = some row.name
  description : row.description = some (s.description.getD "")
  order : s.order = some row.stepOrder
  slaHours : s.slaHours = row.slaHours

/-- The orders from 1 to the number of steps. -/
def Blueprint.ascending (data : Blueprint) : List (Option ℤ) :=
  (List.range' 1 data.steps.length).map fun order : ℕ => some (order : ℤ)

/-- The orders of the steps are a permutation of 1 to their number. -/
def Blueprint.Numbered (data : Blueprint) : Prop := (data.steps.map (·.order)).Perm data.ascending

/-- A request has visited every step of a blueprint once, in increasing order. -/
def VisitsInOrder (data : Blueprint) (db : Database) (request : WorkflowRequest) : Prop :=
  ∃ arranged : List BlueprintStep, arranged.Perm data.steps ∧
    arranged.map (·.order) = data.ascending ∧
    List.Forall₂ (db.Shows BlueprintStep.Fits) arranged (db.visitedSteps request.id)

variable {casing : Lowering} {roles : List Role} {page : BlueprintPage} {data : Blueprint}
  {payload : WorkflowPayload} {create : WorkflowCreate}

/-! ## The stored definition -/

theorem fits_storedSteps (hsubmit : page.submit? casing roles data = some payload)
    (hvalid : payload.validate? = some create) (workflowId id : Uuid) :
    List.Forall₂ BlueprintStep.Fits data.steps (storedSteps workflowId id create.steps) := by
  have hformats := (submitted_steps hsubmit).1
  have hstored := WorkflowPayload.storedAs_storedSteps hvalid workflowId id
  generalize payload.steps = formattedSteps at hformats hstored
  generalize storedSteps workflowId id create.steps = rows at hstored ⊢
  generalize data.steps = steps at hformats ⊢
  induction hformats generalizing rows with
  | nil =>
      cases hstored
      exact .nil
  | cons hhead htail ih =>
      obtain ⟨role, -, rfl⟩ := hhead
      cases hstored with
      | cons hrow hrest =>
          exact .cons ⟨hrow.name, hrow.description, hrow.stepOrder, hrow.slaHours⟩ (ih _ hrest)

/-- Stored steps have the orders of the steps they fit. -/
theorem map_order_of_fits {steps : List BlueprintStep} {rows : List WorkflowStep}
    (hfits : List.Forall₂ BlueprintStep.Fits steps rows) :
    steps.map (·.order) = rows.map fun row => some row.stepOrder := by
  induction hfits with
  | nil => rfl
  | cons hhead htail ih => rw [List.map_cons, List.map_cons, hhead.order, ih]

/-- The approvals link the orders as the steps do. -/
theorem linearTransitions_eq {formattedSteps : List StepPayload} {orders : List ℤ}
    (horders : formattedSteps.map (·.stepOrder) = orders.map some) :
    linearTransitions formattedSteps = (neighbours orders).map fun (fromOrder, toOrder) =>
      ⟨some fromOrder, toOrder, "APPROVED"⟩ := by
  have hsteps : linearTransitions formattedSteps =
      (neighbours (formattedSteps.map (·.stepOrder))).map fun (fromOrder, toOrder) =>
        ⟨fromOrder, toOrder.join, "APPROVED"⟩ := by
    rw [neighbours_map, List.map_map]
    apply List.map_congr_left
    intro (current, next) _
    cases next <;> rfl
  rw [hsteps, horders, neighbours_map, List.map_map]
  apply List.map_congr_left
  intro (fromOrder, toOrder) _
  cases toOrder <;> rfl

theorem mem_transitions_submitted (hsubmit : page.submit? casing roles data = some payload)
    (hvalid : payload.validate? = some create) {transData : StepTransitionCreate} :
    transData ∈ create.transitions ↔
      (transData.fromStepOrder, transData.toStepOrder) ∈
          neighbours (create.steps.map (·.stepOrder)) ∧
        transData.outcome = "APPROVED" ∧ transData.conditionConfig = none := by
  rw [WorkflowPayload.mem_transitions hvalid, (submitted_steps hsubmit).2,
    linearTransitions_eq (WorkflowPayload.steps_stepOrder hvalid)]
  simp only [List.mem_map, Prod.exists, TransitionPayload.mk.injEq, Option.some_inj]
  constructor
  · rintro ⟨⟨fromOrder, toOrder, hneighbour, rfl, rfl, houtcome⟩, hconfig⟩
    exact ⟨hneighbour, houtcome.symm, hconfig⟩
  · rintro ⟨hneighbour, houtcome, hconfig⟩
    exact ⟨⟨_, _, hneighbour, rfl, rfl, houtcome.symm⟩, hconfig⟩

/-- The pages submit linear definitions, as long as no order comes twice. -/
theorem linear_submitted (hsubmit : page.submit? casing roles data = some payload)
    (hvalid : payload.validate? = some create) (hdistinct : (data.steps.map (·.order)).Nodup) :
    create.Linear where
  distinct := by
    rw [← submitted_stepOrder hsubmit, WorkflowPayload.steps_stepOrder hvalid] at hdistinct
    exact List.Nodup.of_map some hdistinct
  unguarded transData hdata := ((mem_transitions_submitted hsubmit hvalid).mp hdata).2.2
  approved fromOrder toOrder := by
    constructor
    · rintro ⟨transData, hdata, -, rfl, rfl⟩
      exact ((mem_transitions_submitted hsubmit hvalid).mp hdata).1
    · intro hneighbour
      exact ⟨⟨fromOrder, toOrder, "APPROVED", none⟩,
        (mem_transitions_submitted hsubmit hvalid).mpr ⟨hneighbour, rfl, rfl⟩, rfl, rfl, rfl⟩
  rejected transData hdata houtcome := by
    have happroved := ((mem_transitions_submitted hsubmit hvalid).mp hdata).2.1
    rw [houtcome] at happroved
    exact absurd happroved (by decide)

/-! ## Requests on it -/

section Requests

variable {db : Database} {request : WorkflowRequest}

theorem distinct_of_numbered (hnumbered : data.Numbered) : (data.steps.map (·.order)).Nodup := by
  refine hnumbered.nodup_iff.mpr (List.Nodup.map ?_ List.nodup_range')
  intro first second heq
  exact Int.ofNat_inj.mp (Option.some.inj heq)

/-- A completed request that was approved at every step has visited the steps listed
from the one with order 1 on. -/
theorem visitedSteps_of_numbered (hdb : WellFormed db) (hrequest : request ∈ db.workflowRequests)
    (hrecorded : Recorded db request) (hcreated : CreatedAs db request.workflowId create)
    (hlinear : create.Linear) {skipped after : List WorkflowStep} {first : WorkflowStep}
    (hsplit : storedSteps request.workflowId (request.workflowId + 1) create.steps =
      skipped ++ first :: after) (hfirst : first.stepOrder = 1)
    (hcompleted : request.status = .completed)
    (happroved : ∀ outcome ∈ db.outcomes request.id, outcome = "APPROVED") :
    db.visitedSteps request.id = (first :: after).map (·.id) := by
  have hline := hcreated.line hlinear skipped hsplit ⟨first, rfl, hfirst⟩
  have houtcomes := List.eq_replicate_of_mem happroved
  obtain ⟨hcount, hvisited, hprogress, -⟩ := passed_of_line hdb hrequest hrecorded hline houtcomes
  rcases hcount.lt_or_eq with hlt | hall
  · have hat := hprogress _ (List.getElem?_eq_getElem hlt)
    rw [hat.status_eq] at hcompleted
    cases hcompleted
  · rw [hvisited, hall, List.take_of_length_le (Nat.le_succ _)]

/-- A numbered blueprint is stored with a step of order 1. -/
theorem exists_firstStep_of_numbered {rows : List WorkflowStep}
    (hfits : List.Forall₂ BlueprintStep.Fits data.steps rows) (hnonempty : data.steps ≠ [])
    (hnumbered : data.Numbered) : ∃ first ∈ rows, first.stepOrder = 1 := by
  have hone : some (1 : ℤ) ∈ rows.map fun row => some row.stepOrder := by
    have hpos := List.length_pos_iff.mpr hnonempty
    rw [← map_order_of_fits hfits, hnumbered.mem_iff, Blueprint.ascending]
    exact List.mem_map.mpr ⟨1, List.mem_range'_1.mpr ⟨le_rfl, by omega⟩, rfl⟩
  obtain ⟨first, hmem, hfirst⟩ := List.mem_map.mp hone
  exact ⟨first, hmem, Option.some.inj hfirst⟩

/-- In a blueprint listed in its order, nothing comes before the step of order 1. -/
theorem skipped_of_ascending {skipped after : List WorkflowStep} {first : WorkflowStep}
    (hfits : List.Forall₂ BlueprintStep.Fits data.steps (skipped ++ first :: after))
    (hfirst : first.stepOrder = 1) (hnumbered : data.Numbered)
    (hascending : data.steps.map (·.order) = data.ascending) : skipped = [] := by
  have hdistinct := distinct_of_numbered hnumbered
  rw [map_order_of_fits hfits] at hascending hdistinct
  cases skipped with
  | nil => rfl
  | cons row rest =>
      obtain ⟨before, hlength⟩ : ∃ before, data.steps.length = before + 1 := by
        apply Nat.exists_eq_add_one.mpr
        rw [hfits.length_eq]
        simp
      rw [Blueprint.ascending, hlength, List.range'_succ] at hascending
      have hhead : some row.stepOrder = some (1 : ℤ) := (List.cons.inj hascending).1
      -- the first listed step would have order 1 as well
      have hagain : some first.stepOrder = some (1 : ℤ) := congrArg some hfirst
      rw [List.cons_append, List.map_cons, List.nodup_cons, hhead] at hdistinct
      refine absurd (List.mem_map.mpr ⟨first, ?_, hagain⟩) hdistinct.1
      exact List.mem_append_right _ List.mem_cons_self

theorem visitsInOrder_iff (hdb : WellFormed db) (hrequest : request ∈ db.workflowRequests)
    (hrecorded : Recorded db request) (hcreated : CreatedAs db request.workflowId create)
    (hsubmit : page.submit? casing roles data = some payload)
    (hvalid : payload.validate? = some create) (hnonempty : data.steps ≠ [])
    (hnumbered : data.Numbered) (hcompleted : request.status = .completed)
    (happroved : ∀ outcome ∈ db.outcomes request.id, outcome = "APPROVED") :
    VisitsInOrder data db request ↔ data.steps.map (·.order) = data.ascending := by
  have hlinear := linear_submitted hsubmit hvalid (distinct_of_numbered hnumbered)
  have hfits := fits_storedSteps hsubmit hvalid request.workflowId (request.workflowId + 1)
  have hfound := hcreated.step?_eq hdb
  generalize hrows : storedSteps request.workflowId (request.workflowId + 1) create.steps = rows
    at hfits hfound
  -- the step with order 1 is where requests enter
  obtain ⟨first, hmem, hfirst⟩ := exists_firstStep_of_numbered hfits hnonempty hnumbered
  obtain ⟨skipped, after, rfl⟩ := List.append_of_mem hmem
  have hvisited := visitedSteps_of_numbered hdb hrequest hrecorded hcreated hlinear hrows hfirst
    hcompleted happroved
  rw [VisitsInOrder, hvisited]
  have hshows : ∀ arranged : List BlueprintStep,
      List.Forall₂ (db.Shows BlueprintStep.Fits) arranged ((first :: after).map (·.id)) ↔
        List.Forall₂ BlueprintStep.Fits arranged (first :: after) := fun _ =>
    shows_iff fun row hrow => hfound row (List.mem_append_right skipped hrow)
  constructor
  · rintro ⟨arranged, hperm, harranged, hforall⟩
    rw [hshows] at hforall
    have hskipped : skipped = [] := by
      have hlength := hforall.length_eq
      have hall := hfits.length_eq
      rw [hperm.length_eq, hall, List.length_append] at hlength
      exact List.length_eq_zero_iff.mp (by omega)
    subst hskipped
    rw [map_order_of_fits hfits, ← harranged, map_order_of_fits hforall, List.nil_append]
  · intro hascending
    obtain rfl := skipped_of_ascending hfits hfirst hnumbered hascending
    exact ⟨data.steps, .refl _, hascending, (hshows _).mpr hfits⟩

end Requests

/-- A completed request that was approved at every step has visited all steps of its
blueprint in their order exactly when the blueprint lists them in their order. -/
theorem blueprint_in_order_iff {db : Database} (hreachable : Reachable db)
    (hsubmit : page.submit? casing roles data = some payload)
    (hvalid : payload.validate? = some create) (hnonempty : data.steps ≠ [])
    (hnumbered : data.Numbered) {env : Env} {creatorId workflowId : Uuid}
    (hstored : (Tx.perform (createWorkflow env create creatorId) db).result = .ok workflowId)
    (calls : List Call) :
    let later := runCalls ((Call.createWorkflow env create creatorId).perform db) calls
    ∀ request ∈ later.workflowRequests, request.workflowId = workflowId →
      request.status = .completed →
      (∀ outcome ∈ later.outcomes request.id, outcome = "APPROVED") →
        (VisitsInOrder data later request ↔ data.steps.map (·.order) = data.ascending) := by
  intro later request hrequest hworkflow hcompleted happroved
  have hcreated := createdAs_of_result hreachable.wellFormed hstored calls hrequest hworkflow
  have hlater : Reachable later :=
    hreachable.runCalls (.createWorkflow env create creatorId :: calls)
  subst hworkflow
  exact visitsInOrder_iff hlater.wellFormed hrequest (hlater.recorded request hrequest) hcreated
    hsubmit hvalid hnonempty hnumbered hcompleted happroved

/-! ### Two steps -/

namespace Sample

def blueprintStep (name : String) (order : ℤ) : BlueprintStep :=
  ⟨name, none, order, none, none, none⟩

/-- A blueprint of two steps with given orders. -/
def blueprint (first second : ℤ) : Blueprint :=
  ⟨"Purchase", none, [blueprintStep "Check" first, blueprintStep "Pay" second]⟩

/-- What the create page posts for it, when it knows no roles. -/
def blueprintPosted (first second : ℤ) : WorkflowPayload :=
  CreatePage.handleSubmitJson .plain [] (blueprint first second)

def blueprintCreate (first second : ℤ) : WorkflowCreate :=
  (blueprintPosted first second).validate?.getD approvals

/-- A request on the workflow, and approvals of it. -/
def blueprintCalls : List Call := [.startWorkflow (.calm noon) 0 0 [], approval, approval]

/-- The state after the blueprint was stored and the request approved. -/
def afterBlueprint (first second : ℤ) : Database :=
  runCalls ((Call.createWorkflow (.calm noon) (blueprintCreate first second) 0).perform
    Database.empty) blueprintCalls

end Sample

theorem blueprint_in_order_iff_ascending :
    ∃ request ∈ (Sample.afterBlueprint 1 2).workflowRequests,
      (VisitsInOrder (Sample.blueprint 1 2) (Sample.afterBlueprint 1 2) request ↔
        (Sample.blueprint 1 2).steps.map (·.order) = (Sample.blueprint 1 2).ascending) := by
  obtain ⟨request, hrequest, hworkflow, hcompleted, happroved⟩ :
      ∃ request ∈ (Sample.afterBlueprint 1 2).workflowRequests, request.workflowId = 0 ∧
        request.status = .completed ∧
          ∀ outcome ∈ (Sample.afterBlueprint 1 2).outcomes request.id, outcome = "APPROVED" := by
    decide +kernel
  refine ⟨request, hrequest, ?_⟩
  exact blueprint_in_order_iff ⟨[], rfl⟩
    (show BlueprintPage.create.submit? .plain [] (Sample.blueprint 1 2) =
      some (Sample.blueprintPosted 1 2) from rfl)
    (show (Sample.blueprintPosted 1 2).validate? = some (Sample.blueprintCreate 1 2) from rfl)
    (List.cons_ne_nil _ _) (.refl _) rfl Sample.blueprintCalls request hrequest hworkflow hcompleted
    happroved

/-- A blueprint that lists its second step first loses it: the request is completed
after the first. -/
theorem blueprint_skips_step :
    ¬∀ (casing : Lowering) (roles : List Role) (page : BlueprintPage) (data : Blueprint)
      payload create, page.submit? casing roles data = some payload →
        payload.validate? = some create → data.steps ≠ [] → data.Numbered →
        ∀ db, Reachable db → ∀ env creatorId workflowId,
          (Tx.perform (createWorkflow env create creatorId) db).result = .ok workflowId → ∀ calls,
            let later := runCalls ((Call.createWorkflow env create creatorId).perform db) calls
            ∀ request ∈ later.workflowRequests, request.workflowId = workflowId →
              request.status = .completed →
              (∀ outcome ∈ later.outcomes request.id, outcome = "APPROVED") →
                VisitsInOrder data later request := by
  intro hkeeps
  obtain ⟨request, hrequest, hworkflow, hcompleted, happroved, hvisited⟩ :
      ∃ request ∈ (Sample.afterBlueprint 2 1).workflowRequests, request.workflowId = 0 ∧
        request.status = .completed ∧
        (∀ outcome ∈ (Sample.afterBlueprint 2 1).outcomes request.id, outcome = "APPROVED") ∧
          ((Sample.afterBlueprint 2 1).visitedSteps request.id).length = 1 := by
    decide +kernel
  obtain ⟨arranged, hperm, -, hforall⟩ := hkeeps .plain [] .create (Sample.blueprint 2 1)
    (Sample.blueprintPosted 2 1) (Sample.blueprintCreate 2 1) rfl rfl (List.cons_ne_nil _ _)
    (.swap _ _ _) Database.empty ⟨[], rfl⟩ (.calm Sample.noon) 0 0 rfl Sample.blueprintCalls request
    hrequest hworkflow hcompleted happroved
  have hlength := hforall.length_eq.symm.trans hperm.length_eq
  rw [show (runCalls _ Sample.blueprintCalls) = Sample.afterBlueprint 2 1 from rfl, hvisited]
    at hlength
  cases hlength

end WorkflowPlatform
