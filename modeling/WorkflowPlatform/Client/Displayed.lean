import WorkflowPlatform.Client.Wizard
import WorkflowPlatform.Routing.Passage

/-! # Workflows execute as they are displayed

Whatever an administrator did in the wizard, the workflow he submits is linear: a
request on it goes through the steps as the page showed them.
-/

namespace WorkflowPlatform

open Python WorkflowEngine WorkflowService

namespace CreatePage

/-! ## The submitted definition -/

section Submitted

variable {steps : List Step} {name description : String} {create : WorkflowCreate}

/-- Steps are found by their temporary names, so the submitted transitions have the
orders of the linked steps. -/
theorem mem_transitions_handleSubmit (hdistinct : (steps.map (·.tempId)).Nodup)
    {posted : TransitionPayload} :
    posted ∈ (handleSubmit name description steps (generateDefaultTransitions steps)).transitions ↔
      ∃ current next, (current, next) ∈ neighbours steps ∧
        (posted = ⟨some current.stepOrder, next.map fun step => (step.stepOrder : ℤ), "APPROVED"⟩ ∨
          posted = ⟨some current.stepOrder, none, "REJECTED"⟩) := by
  have hfind : ∀ {step}, step ∈ steps →
      steps.find? (fun other => other.tempId = step.tempId) = some step := fun hstep =>
    (Keyed.find?_eq_some_iff hdistinct).mpr ⟨hstep, rfl⟩
  have hcurrent : ∀ {current next}, (current, next) ∈ neighbours steps → current ∈ steps := by
    intro current next hmem
    rw [← neighbours_fst steps]
    exact List.mem_map_of_mem hmem
  have happroved : ∀ {current next}, (current, next) ∈ neighbours steps →
      formatTransition steps ⟨current.tempId, next.map (·.tempId), "APPROVED"⟩ =
        ⟨some current.stepOrder, next.map fun step => (step.stepOrder : ℤ), "APPROVED"⟩ := by
    intro current next hmem
    have hto : (next.map (·.tempId)).bind (fun tempId =>
        steps.find? fun other => other.tempId = tempId) = next := by
      obtain ⟨before, rest, hsplit, rfl⟩ := mem_neighbours.mp hmem
      cases rest with
      | nil => rfl
      | cons step further => exact hfind (by simp [hsplit])
    simp only [formatTransition, hfind (hcurrent hmem), hto, Option.map_some]
  have hrejected : ∀ {current next}, (current, next) ∈ neighbours steps →
      formatTransition steps ⟨current.tempId, none, "REJECTED"⟩ =
        ⟨some current.stepOrder, none, "REJECTED"⟩ := by
    intro current next hmem
    simp only [formatTransition, hfind (hcurrent hmem), Option.map_some, Option.bind_none,
      Option.map_none]
  simp only [handleSubmit, generateDefaultTransitions, List.mem_map, List.mem_flatMap, Prod.exists,
    List.mem_cons, List.not_mem_nil, or_false]
  constructor
  · rintro ⟨transition, ⟨current, next, hmem, rfl | rfl⟩, rfl⟩
    · exact ⟨current, next, hmem, .inl (happroved hmem)⟩
    · exact ⟨current, next, hmem, .inr (hrejected hmem)⟩
  · rintro ⟨current, next, hmem, rfl | rfl⟩
    · exact ⟨_, ⟨current, next, hmem, .inl rfl⟩, happroved hmem⟩
    · exact ⟨_, ⟨current, next, hmem, .inr rfl⟩, hrejected hmem⟩

/-- The orders of the definition are those of the page. -/
theorem stepOrder_create
    (hvalid : (handleSubmit name description steps (generateDefaultTransitions steps)).validate? =
      some create) :
    create.steps.map (·.stepOrder) = steps.map fun step => (step.stepOrder : ℤ) := by
  have horders := WorkflowPayload.steps_stepOrder hvalid
  have hposted : (steps.map formatStep).map (·.stepOrder) =
      (steps.map fun step => (step.stepOrder : ℤ)).map some := by
    rw [List.map_map, List.map_map]
    rfl
  exact List.map_injective_iff.mpr (Option.some_injective ℤ) (horders.symm.trans hposted)

theorem approved_ne_rejected : "APPROVED" ≠ "REJECTED" := by
  decide

/-- The wizard submits linear definitions. -/
theorem linear_handleSubmit (htidy : Tidy steps) (hdistinct : (steps.map (·.tempId)).Nodup)
    (hvalid : (handleSubmit name description steps (generateDefaultTransitions steps)).validate? =
      some create) : create.Linear where
  distinct := by
    rw [stepOrder_create hvalid]
    have hcast : (steps.map fun step => (step.stepOrder : ℤ)) =
        (steps.map (·.stepOrder)).map (Nat.cast : ℕ → ℤ) := by
      rw [List.map_map]
      rfl
    rw [hcast, htidy.numbered]
    exact List.Nodup.map Nat.cast_injective List.nodup_range'
  unguarded transData hdata := ((WorkflowPayload.mem_transitions hvalid).mp hdata).2
  approved fromOrder toOrder := by
    rw [stepOrder_create hvalid, neighbours_map, List.mem_map]
    constructor
    · rintro ⟨transData, hdata, houtcome, rfl, rfl⟩
      have hposted := ((WorkflowPayload.mem_transitions hvalid).mp hdata).1
      obtain ⟨current, next, hmem, heq | heq⟩ := (mem_transitions_handleSubmit hdistinct).mp hposted
      · rw [TransitionPayload.mk.injEq, Option.some_inj] at heq
        exact ⟨(current, next), hmem, Prod.ext heq.1.symm heq.2.1.symm⟩
      · rw [TransitionPayload.mk.injEq, houtcome] at heq
        exact absurd heq.2.2 approved_ne_rejected
    · rintro ⟨⟨current, next⟩, hmem, heq⟩
      cases heq
      refine ⟨⟨current.stepOrder, next.map fun step => (step.stepOrder : ℤ), "APPROVED", none⟩, ?_,
        rfl, rfl, rfl⟩
      rw [WorkflowPayload.mem_transitions hvalid, mem_transitions_handleSubmit hdistinct]
      exact ⟨⟨current, next, hmem, .inl rfl⟩, rfl⟩
  rejected transData hdata houtcome := by
    have hposted := ((WorkflowPayload.mem_transitions hvalid).mp hdata).1
    obtain ⟨current, next, hmem, heq | heq⟩ := (mem_transitions_handleSubmit hdistinct).mp hposted
    · rw [TransitionPayload.mk.injEq, houtcome] at heq
      exact absurd heq.2.2.symm approved_ne_rejected
    · rw [TransitionPayload.mk.injEq] at heq
      exact heq.2.1

/-- A stored step is the one the page showed. -/
structure Step.Fits (step : Step) (row : WorkflowStep) : Prop where
  name : row.name = step.name
  description : row.description = some step.description
  stepOrder : row.stepOrder = step.stepOrder
  slaHours : row.slaHours = step.slaHours
  requiredRoleId : row.requiredRoleId = step.requiredRoleId
  requiredPermissionId : row.requiredPermissionId = step.requiredPermissionId

theorem shows_storedSteps (workflowId id : Uuid)
    (hvalid : (handleSubmit name description steps (generateDefaultTransitions steps)).validate? =
      some create) : List.Forall₂ Step.Fits steps (storedSteps workflowId id create.steps) := by
  have hsteps := WorkflowPayload.storedAs_storedSteps hvalid workflowId id
  rw [handleSubmit, List.forall₂_map_left_iff] at hsteps
  apply hsteps.imp
  intro step row hstored
  exact {
    name := (Option.some.inj hstored.name).symm
    description := hstored.description
    stepOrder := (Option.some.inj hstored.stepOrder).symm
    slaHours := by simpa [formatStep] using hstored.slaHours.symm
    requiredRoleId := hstored.requiredRoleId
    requiredPermissionId := hstored.requiredPermissionId }

end Submitted

/-! ## Requests on it -/

/-- A user may decide a step of the page. -/
def Authorized (user : User) (step : Step) : Prop :=
  isAdmin user = true ∨ ∀ roleId ∈ step.requiredRoleId, roleId ∈ roleIds user

/-- A request goes through the steps as they were shown. -/
structure ExecutesAsDisplayed (shown : List Step) (db : Database) (request : WorkflowRequest) :
    Prop where
  visits : ∀ count, db.outcomes request.id = List.replicate count "APPROVED" ∨
      db.outcomes request.id = List.replicate count "APPROVED" ++ ["REJECTED"] →
    List.Forall₂ (db.Shows Step.Fits) (shown.take (count + 1)) (db.visitedSteps request.id)
  underway : ∀ (count : ℕ) (hcount : count < shown.length),
    db.outcomes request.id = List.replicate count "APPROVED" →
      ∃ stepId, InProgressAt db request stepId ∧ db.Shows Step.Fits shown[count] stepId
  approved : db.outcomes request.id = List.replicate shown.length "APPROVED" →
    CompletedWith db request .approved
  ended : ∀ count, db.outcomes request.id = List.replicate count "APPROVED" → count ≤ shown.length
  rejected : ∀ count, db.outcomes request.id = List.replicate count "APPROVED" ++ ["REJECTED"] →
    count < shown.length ∧ CompletedWith db request .rejected
  decides : ∀ (count : ℕ) (hcount : count < shown.length),
    db.outcomes request.id = List.replicate count "APPROVED" →
      ∀ user, Authorized user shown[count] → ∀ outcome ∈ ["APPROVED", "REJECTED"],
        ∀ (env : Env) context, Unobstructed env context → ((env.utcnow 1).addHours 24).isSome →
          (Call.processStep env request.id user outcome context).accepted db = true ∧
            ((Call.processStep env request.id user outcome context).perform db).outcomes request.id
              = db.outcomes request.id ++ [outcome]

section Executed

variable {db : Database} {create : WorkflowCreate} {shown : List Step}

theorem exists_shown {rows : List WorkflowStep} (hshows : List.Forall₂ Step.Fits shown rows)
    {row : WorkflowStep} (hrow : row ∈ rows) : ∃ step ∈ shown, step.Fits row := by
  induction hshows with
  | nil => cases hrow
  | @cons step _ _ _ hhead htail ih =>
      rcases List.mem_cons.mp hrow with rfl | hrest
      · exact ⟨step, List.mem_cons_self, hhead⟩
      · obtain ⟨other, hother, hshown⟩ := ih hrest
        exact ⟨other, List.mem_cons_of_mem _ hother, hshown⟩

/-- The access check lets authorized users decide a shown step. -/
theorem permitted_of_authorized {step : Step} {exec : RequestStep} {user : User}
    (hpermission : step.requiredPermissionId = none) (hvisits : db.Shows Step.Fits step exec.stepId)
    (hauthorized : Authorized user step) : rbacError db user exec = none := by
  obtain ⟨row, hrow, hshows⟩ := hvisits
  rcases hauthorized with hadmin | hrole
  · simp [rbacError, hadmin]
  · rw [rbacError]
    split
    · rfl
    · rw [hrow]
      simp only [missing, hshows.requiredRoleId, hshows.requiredPermissionId, hpermission]
      cases hrequired : step.requiredRoleId with
      | none => rfl
      | some roleId => simp [hrole roleId hrequired]

/-- The first step of a tidy page is stored with the order 1. -/
theorem firstStep_of_tidy {rows : List WorkflowStep} (hshows : List.Forall₂ Step.Fits shown rows)
    (htidy : Tidy shown) (hnonempty : shown ≠ []) :
    ∃ first, rows.head? = some first ∧ first.stepOrder = 1 := by
  cases hshows with
  | nil => exact absurd rfl hnonempty
  | @cons step row later _ hhead htail =>
      have hone := htidy.numbered
      rw [List.map_cons, List.length_cons, List.range'_succ] at hone
      refine ⟨row, rfl, ?_⟩
      rw [hhead.stepOrder, (List.cons.inj hone).1]
      rfl

section OnPage

variable {request : WorkflowRequest} {rows : List WorkflowStep} (hdb : WellFormed db)
  (hrequest : request ∈ db.workflowRequests) (hrecorded : Recorded db request)
  (hrows : List.Forall₂ (db.Shows Step.Fits) shown (rows.map (·.id)))
  (hline : DecisionGraph.Line (db.graph request.workflowId) (rows.map (·.id)) (·.1 = "APPROVED")
    (·.1 = "REJECTED"))

include hdb hrequest hrecorded hrows hline

/-- After some approvals a request is at the step shown next. -/
theorem inProgressAt_shown (count : ℕ) (hcount : count < shown.length)
    (houtcomes : db.outcomes request.id = List.replicate count "APPROVED") :
    ∃ stepId, InProgressAt db request stepId ∧ db.Shows Step.Fits shown[count] stepId := by
  obtain ⟨-, -, hprogress, -⟩ := passed_of_line hdb hrequest hrecorded hline houtcomes
  have hbound : count < (rows.map (·.id)).length := hrows.length_eq ▸ hcount
  exact ⟨_, hprogress _ (List.getElem?_eq_getElem hbound), hrows.get hcount hbound⟩

/-- Whoever may decide the step shown next decides on. -/
theorem decides_shown (hpermission : ∀ step ∈ shown, step.requiredPermissionId = none) (count : ℕ)
    (hcount : count < shown.length)
    (houtcomes : db.outcomes request.id = List.replicate count "APPROVED") {user : User}
    (hauthorized : Authorized user shown[count]) {outcome : String}
    (houtcome : (StepStatus.ofValue? outcome).isSome) {env : Env} {context : Option Dict}
    (hfree : Unobstructed env context)
    (hdeadlines : ∀ step ∈ db.stepsOf request.workflowId,
      ((env.utcnow 1).addHours step.slaHours).isSome) :
    (Call.processStep env request.id user outcome context).accepted db = true ∧
      ((Call.processStep env request.id user outcome context).perform db).outcomes request.id =
        db.outcomes request.id ++ [outcome] := by
  obtain ⟨stepId, hprogress, hvisits⟩ :=
    inProgressAt_shown hdb hrequest hrecorded hrows hline count hcount houtcomes
  obtain ⟨exec, hopen, rfl⟩ := hprogress.open_eq
  obtain ⟨decided, hactive⟩ := active_of_open hdb hrequest (hopen ▸ List.mem_singleton_self exec)
  have hpermitted := permitted_of_authorized (hpermission _ (List.getElem_mem hcount)) hvisits
    hauthorized
  exact outcomes_processStep hdb hrequest hactive hpermitted houtcome hfree hdeadlines

end OnPage

theorem executesAsDisplayed_of_created {request : WorkflowRequest} (hdb : WellFormed db)
    (hrequest : request ∈ db.workflowRequests) (hrecorded : Recorded db request)
    (hcreated : CreatedAs db request.workflowId create) (hlinear : create.Linear)
    (hshows : List.Forall₂ Step.Fits shown
      (storedSteps request.workflowId (request.workflowId + 1) create.steps))
    (htidy : Tidy shown) (hnonempty : shown ≠ []) : ExecutesAsDisplayed shown db request := by
  have hrows := (shows_iff (hcreated.step?_eq hdb)).mpr hshows
  generalize hstored : storedSteps request.workflowId (request.workflowId + 1) create.steps = rows
    at hshows hrows
  have hlength : shown.length = (rows.map (·.id)).length := hrows.length_eq
  have hline := hcreated.line hlinear [] hstored (firstStep_of_tidy hshows htidy hnonempty)
  exact {
    visits := by
      intro count houtcomes
      have hvisited : db.visitedSteps request.id = (rows.map (·.id)).take (count + 1) := by
        rcases houtcomes with hforward | hhalted
        · exact (passed_of_line hdb hrequest hrecorded hline hforward).2.1
        · exact (rejected_of_line hdb hrequest hrecorded hline hhalted).2.1
      rw [hvisited]
      exact List.forall₂_take _ hrows
    underway := inProgressAt_shown hdb hrequest hrecorded hrows hline
    approved := by
      intro houtcomes
      exact (passed_of_line hdb hrequest hrecorded hline houtcomes).2.2.2 hlength
    ended := by
      intro count houtcomes
      rw [hlength]
      exact (passed_of_line hdb hrequest hrecorded hline houtcomes).1
    rejected := by
      intro count houtcomes
      rw [hlength]
      obtain ⟨hcount, -, hcompleted⟩ := rejected_of_line hdb hrequest hrecorded hline houtcomes
      exact ⟨hcount, hcompleted⟩
    decides := by
      intro count hcount houtcomes user hauthorized outcome houtcome env context hfree hdeadline
      apply decides_shown hdb hrequest hrecorded hrows hline htidy.requiredPermissionId count hcount
        houtcomes hauthorized _ hfree
      · -- every step of the page is due within a day
        intro row hrow
        rw [hcreated.steps_eq, hstored] at hrow
        obtain ⟨step, hstep, hshown⟩ := exists_shown hshows hrow
        rw [hshown.slaHours, htidy.slaHours step hstep]
        exact hdeadline
      · rcases List.mem_pair.mp houtcome with rfl | rfl <;> decide }

end Executed

/-- A workflow that was built by any edits of the wizard and accepted executes as the
page displayed it, whatever calls come in between. -/
theorem wizard_executes_as_displayed {db : Database} (hreachable : Reachable db) {edits : List Edit}
    {shown : List Step} (hedited : edited edits = some shown)
    (hdistinct : (shown.map (·.tempId)).Nodup) (hnonempty : shown ≠ []) {name description : String}
    {create : WorkflowCreate}
    (hvalid : (handleSubmit name description shown (generateDefaultTransitions shown)).validate? =
      some create) {env : Env} {creatorId workflowId : Uuid}
    (hstored : (Tx.perform (createWorkflow env create creatorId) db).result = .ok workflowId)
    (calls : List Call) :
    ∀ request ∈ (runCalls ((Call.createWorkflow env create creatorId).perform db)
        calls).workflowRequests, request.workflowId = workflowId →
      ExecutesAsDisplayed shown
        (runCalls ((Call.createWorkflow env create creatorId).perform db) calls) request := by
  intro request hrequest hworkflow
  have hcreated := createdAs_of_result hreachable.wellFormed hstored calls hrequest hworkflow
  have hlater : Reachable
      (runCalls ((Call.createWorkflow env create creatorId).perform db) calls) :=
    hreachable.runCalls (.createWorkflow env create creatorId :: calls)
  subst hworkflow
  have htidy := tidy_edited hedited
  exact executesAsDisplayed_of_created hlater.wellFormed hrequest (hlater.recorded request hrequest)
    hcreated (linear_handleSubmit htidy hdistinct hvalid) (shows_storedSteps _ _ hvalid) htidy
    hnonempty

/-- Three steps are added, the second is removed, and the first gets a name and a role. -/
def someEdits : List Edit :=
  [.addStep "a", .addStep "b", .addStep "c", .removeStep 1, .updateStep 0 (.name "Check"),
    .updateStep 0 (.requiredRoleId (some 7))]

def someSteps : List Step :=
  [⟨"a", "Check", "", 1, 24, some 7, none, false⟩, ⟨"c", "Step 3", "", 2, 24, none, none, false⟩]

def someCreate : WorkflowCreate :=
  (handleSubmit "Purchase" "" someSteps (generateDefaultTransitions someSteps)).validate?.getD
    Sample.approvals

/-- The request that is started on the workflow. -/
def someRequest : WorkflowRequest :=
  startedRequest (.calm Sample.noon) 0 0 [] (stepRow 0 Sample.firstReview 1) 7

theorem wizard_executes_as_displayed_some :
    ExecutesAsDisplayed someSteps
      (runCalls ((Call.createWorkflow (.calm Sample.noon) someCreate 0).perform Database.empty)
        [.startWorkflow (.calm Sample.noon) 0 0 []]) someRequest :=
  wizard_executes_as_displayed ⟨[], rfl⟩ (show edited someEdits = some someSteps from rfl)
    (by decide) (List.cons_ne_nil _ _)
    (show (handleSubmit "Purchase" "" someSteps (generateDefaultTransitions someSteps)).validate? =
      some someCreate from rfl)
    rfl [.startWorkflow (.calm Sample.noon) 0 0 []] someRequest
    (List.mem_singleton_self someRequest) rfl

end CreatePage

end WorkflowPlatform
