import Mathlib.Logic.Relation
import WorkflowPlatform.Cases.Refinement

/-! # Which requests can be completed

A definition may hold a request for ever: in a circle of transitions, say, that every
outcome stays in. Whether a request can still be completed is a question about its
definition alone: it can if and only if the transitions its data can enable lead from
its step to an end, for decisions whose context the database can store.
-/

namespace WorkflowPlatform

open Python WorkflowEngine Relation

/-- One decision that can be stored can take a request with this data from a step to another
one, or to the end: along a transition its outcome enables, or because it enables none. -/
def Definition.Leads (definition : Definition) (casts : List Json → Bool) (data : Option Dict)
    (source target : Option Uuid) : Prop :=
  ∃ stepId, source = some stepId ∧ ∃ (outcome : StepStatus) (context : Option Dict),
    storable casts context = true ∧
    ((∃ trans ∈ definition.transitionsFrom stepId outcome.value,
      enabled (evalContext data context) trans = true ∧
        (trans.toStepId.bind definition.step?).map (·.id) = target) ∨
    (target = none ∧ ∀ trans ∈ definition.transitionsFrom stepId outcome.value,
      enabled (evalContext data context) trans = false))

/-- The step a case is at. -/
def Case.place (case : Case) : Option Uuid :=
  match case.stage with
  | .waiting stepId _ _ => some stepId
  | .closed _ => none

variable {definition : Definition} {casts : List Json → Bool} {case after : Case}
  {ruling : Ruling}

/-! ## One ruling -/

/-- Where a ruling leads. -/
theorem leads_of_rule? (hrule : case.rule? definition ruling = some after) :
    definition.Leads ruling.env.castsArray case.data case.place after.place ∧
      after.data = case.data := by
  obtain ⟨data, visits, stage⟩ := case
  cases stage with
  | closed completedAt => cases hrule
  | waiting stepId startedAt deadline =>
      simp only [Case.rule?, Option.ite_none_left_eq_some, Option.bind_eq_some_iff,
        Bool.or_eq_true, not_or, Bool.not_eq_true, Bool.not_eq_false'] at hrule
      obtain ⟨⟨⟨⟨-, hstores⟩, -⟩, -⟩, outcome, houtcome, hroute⟩ := hrule
      have hvalue := StepStatus.ofValue?_eq_some_iff.mp houtcome
      have hleads : definition.Leads ruling.env.castsArray data (some stepId)
          ((ruling.next definition data stepId).map (·.id)) := by
        refine ⟨stepId, rfl, outcome, ruling.context, hstores, ?_⟩
        rw [hvalue, Ruling.next]
        cases hpick : ruling.env.transitionOrder.pick
            (enabled (evalContext data ruling.context))
            (definition.transitionsFrom stepId ruling.outcome) with
        | none =>
            refine .inr ⟨rfl, ?_⟩
            intro trans htrans
            simpa using RowOrder.pick_eq_none_iff.mp hpick trans htrans
        | some trans =>
            obtain ⟨hmem, henabled⟩ := RowOrder.pick_some hpick
            exact .inl ⟨trans, hmem, henabled, rfl⟩
      cases hnext : ruling.next definition data stepId with
      | none =>
          simp only [hnext, Option.ite_none_left_eq_some, Option.some.injEq] at hroute
          obtain ⟨-, rfl⟩ := hroute
          rw [hnext] at hleads
          exact ⟨hleads, rfl⟩
      | some next =>
          simp only [hnext, Option.map_eq_some_iff] at hroute
          obtain ⟨deadline, -, rfl⟩ := hroute
          rw [hnext] at hleads
          exact ⟨hleads, rfl⟩

/-- The calm surroundings over a database, in which rows come in a given order. -/
def Env.calmWith (now : DateTime) (casts : List Json → Bool) (order : RowOrder StepTransition) :
    Env :=
  { (Env.calm now).casting casts with transitionOrder := order }

/-- What an administrator decides in calm surroundings. -/
def Ruling.calm (now : DateTime) (casts : List Json → Bool) (user : User) (outcome : StepStatus)
    (context : Option Dict) (order : RowOrder StepTransition) : Ruling :=
  ⟨.calmWith now casts order, user, outcome.value, context⟩

theorem Ruling.next_calm (now : DateTime) (casts : List Json → Bool) (user : User)
    (outcome : StepStatus) (context data : Option Dict) (order : RowOrder StepTransition)
    (stepId : Uuid) :
    (Ruling.calm now casts user outcome context order).next definition data stepId =
      (order.pick (enabled (evalContext data context))
        (definition.transitionsFrom stepId outcome.value)).bind
          fun trans => trans.toStepId.bind definition.step? := rfl

theorem Ruling.mem_steps_of_next {data : Option Dict} {stepId : Uuid} {step : WorkflowStep}
    (hnext : ruling.next definition data stepId = some step) : step ∈ definition.steps := by
  obtain ⟨trans, -, htarget⟩ := Option.bind_eq_some_iff.mp hnext
  obtain ⟨toStepId, -, hstep⟩ := Option.bind_eq_some_iff.mp htarget
  exact List.mem_of_find?_eq_some hstep

/-- The rows can come in an order in which a decision leads where its transitions do. -/
theorem exists_next (now : DateTime) (casts : List Json → Bool) (user : User)
    {outcome : StepStatus} {context data : Option Dict} {stepId : Uuid} {target : Option Uuid}
    (hroute : (∃ trans ∈ definition.transitionsFrom stepId outcome.value,
        enabled (evalContext data context) trans = true ∧
          (trans.toStepId.bind definition.step?).map (·.id) = target) ∨
      (target = none ∧ ∀ trans ∈ definition.transitionsFrom stepId outcome.value,
        enabled (evalContext data context) trans = false)) :
    ∃ order, ((Ruling.calm now casts user outcome context order).next definition data
      stepId).map (·.id) = target := by
  rcases hroute with ⟨trans, htrans, henabled, htarget⟩ | ⟨rfl, hnone⟩
  · -- the enabled transition comes first
    obtain ⟨order, hpick⟩ := RowOrder.exists_pick htrans henabled
    refine ⟨order, ?_⟩
    rw [Ruling.next_calm, hpick, Option.bind_some]
    exact htarget
  · have hpick : RowOrder.stored.pick (enabled (evalContext data context))
        (definition.transitionsFrom stepId outcome.value) = none := by
      apply RowOrder.pick_eq_none_iff.mpr
      intro trans htrans
      simpa using hnone trans htrans
    refine ⟨.stored, ?_⟩
    rw [Ruling.next_calm, hpick]
    rfl

/-- An administrator can take a case wherever one decision can lead. -/
theorem exists_ruling {user : User} {now : DateTime} (hadmin : isAdmin user = true)
    (hfits : ∀ step ∈ definition.steps, (now.addHours step.slaHours).isSome)
    {target : Option Uuid} (hleads : definition.Leads casts case.data case.place target) :
    ∃ ruling after, ruling.env.castsArray = casts ∧ case.rule? definition ruling = some after ∧
      after.place = target ∧ after.data = case.data := by
  obtain ⟨data, visits, stage⟩ := case
  cases stage with
  | closed completedAt =>
      obtain ⟨stepId, hplace, -⟩ := hleads
      cases hplace
  | waiting stepId startedAt deadline =>
      obtain ⟨_, hplace, outcome, context, hstores, hroute⟩ := hleads
      cases hplace
      obtain ⟨order, hnext⟩ := exists_next now casts user hroute
      refine ⟨.calm now casts user outcome context order, ?_⟩
      have hpermitted : (Ruling.calm now casts user outcome context order).permitted definition
          stepId = true := by
        simp [Ruling.permitted, Ruling.calm, hadmin]
      have hstored : (Ruling.calm now casts user outcome context order).env.stores
          (Ruling.calm now casts user outcome context order).context = true := hstores
      have hnamed : StepStatus.ofValue? (Ruling.calm now casts user outcome context
          order).outcome = some outcome := StepStatus.ofValue?_value outcome
      simp only [Case.rule?, hpermitted, hstored, hnamed, Option.bind_some]
      cases hfound : (Ruling.calm now casts user outcome context order).next definition data
          stepId with
      | none =>
          rw [hfound] at hnext
          exact ⟨_, rfl, rfl, hnext, rfl⟩
      | some next =>
          rw [hfound] at hnext
          obtain ⟨deadline, hdeadline⟩ :=
            Option.isSome_iff_exists.mp (hfits next (Ruling.mem_steps_of_next hfound))
          exact ⟨_, rfl, congrArg (Option.map _) hdeadline, hnext, rfl⟩

/-! ## Many rulings -/

/-- Rulings lead along paths of the definition. -/
theorem path_of_rulings (case : Case) {rulings : List Ruling}
    (hcasts : ∀ ruling ∈ rulings, ruling.env.castsArray = casts) :
    ReflTransGen (definition.Leads casts case.data) case.place
        (SerialRun.after (Case.rule definition) case rulings).place := by
  induction rulings generalizing case with
  | nil => exact .refl
  | cons ruling rest ih =>
      obtain ⟨hfirst, hothers⟩ := List.forall_mem_cons.mp hcasts
      have hrest := ih (case.rule definition ruling) hothers
      rw [SerialRun.after_cons]
      cases hrule : case.rule? definition ruling with
      | none =>
          have hsame : case.rule definition ruling = case := by
            rw [Case.rule, hrule, Option.getD_none]
          rwa [hsame] at hrest ⊢
      | some after =>
          have hafter : case.rule definition ruling = after := by
            rw [Case.rule, hrule, Option.getD_some]
          obtain ⟨hleads, hdata⟩ := leads_of_rule? hrule
          rw [hafter, hdata] at hrest
          rw [hfirst] at hleads
          rw [hafter]
          exact .head hleads hrest

/-- An administrator can take a case along any path. -/
theorem rulings_of_path {user : User} {now : DateTime} (hadmin : isAdmin user = true)
    (hfits : ∀ step ∈ definition.steps, (now.addHours step.slaHours).isSome)
    {data : Option Dict} {source target : Option Uuid}
    (hpath : ReflTransGen (definition.Leads casts data) source target) (case : Case)
    (hplace : case.place = source) (hdata : case.data = data) :
    ∃ rulings : List Ruling, (∀ ruling ∈ rulings, ruling.env.castsArray = casts) ∧
      (SerialRun.after (Case.rule definition) case rulings).place = target := by
  induction hpath using ReflTransGen.head_induction_on generalizing case with
  | refl => exact ⟨[], fun _ hruling => absurd hruling List.not_mem_nil, hplace⟩
  | head hleads _ ih =>
      rw [← hplace, ← hdata] at hleads
      obtain ⟨ruling, after, hcasts, hrule, hafter, hkept⟩ := exists_ruling hadmin hfits hleads
      obtain ⟨rulings, hothers, hreached⟩ := ih after hafter (hkept.trans hdata)
      refine ⟨ruling :: rulings, List.forall_mem_cons.mpr ⟨hcasts, hothers⟩, ?_⟩
      rw [SerialRun.after_cons, Case.rule, hrule, Option.getD_some]
      exact hreached

/-! ## Requests -/

section Requests

variable {db : Database} {request : WorkflowRequest}

/-- A request is at the step of its case, and completed where its case is closed. -/
theorem place_caseOf (hdb : WellFormed db) (hrequest : request ∈ db.workflowRequests) :
    (caseOf db request).place = request.currentStepId ∧
      (request.status = .completed ↔ (caseOf db request).place = none) := by
  rcases hdb.conducted request hrequest with ⟨decided, exec, hactive⟩ | hfinished
  · rw [caseOf_of_active hactive, hactive.currentStepId_eq, hactive.status_eq]
    simp [Case.place]
  · rw [caseOf_of_finished hfinished, hfinished.currentStepId_eq, hfinished.status_eq]
    simp [Case.place]

/-- A ruling as a decision of a request. -/
def Ruling.callOn (requestId : Uuid) (ruling : Ruling) : Call :=
  .processStep ruling.env requestId ruling.user ruling.outcome ruling.context

theorem inputs_callOn (requestId : Uuid) (rulings : List Ruling) :
    SerialRun.inputs (Call.rulingOn requestId) (rulings.map (Ruling.callOn requestId)) =
      rulings := by
  have hreads : Call.rulingOn requestId ∘ Ruling.callOn requestId = some :=
    funext fun _ => if_pos rfl
  rw [SerialRun.inputs, List.filterMap_map, hreads, List.filterMap_some]

/-- A ruling meets what its call meets. -/
theorem env_of_rulingOn {requestId : Uuid} {call : Call} {ruling : Ruling}
    (hruling : call.rulingOn requestId = some ruling) : ruling.env = call.env := by
  cases call with
  | processStep env id user outcome context =>
      obtain ⟨-, heq⟩ := Option.ite_none_right_eq_some.mp hruling
      cases heq
      rfl
  | makeDecision env id user payload =>
      obtain ⟨-, heq⟩ := Option.ite_none_right_eq_some.mp hruling
      obtain ⟨outcome, -, rfl⟩ := Option.map_eq_some_iff.mp heq
      rfl
  | createWorkflow | deleteWorkflow | startWorkflow | scanForBreaches => cases hruling

/-- Over a database, a request can be completed, by whatever calls, if and only if its
definition leads from its current step to an end. -/
theorem completable_iff (casts : List Json → Bool) (hreachable : Reachable db)
    (hrequest : request ∈ db.workflowRequests) {user : User} {now : DateTime}
    (hadmin : isAdmin user = true)
    (hfits : ∀ step ∈ db.stepsOf request.workflowId, (now.addHours step.slaHours).isSome) :
    (∃ calls : List Call, (∀ call ∈ calls, call.env.castsArray = casts) ∧
        ∃ row ∈ (runCalls db calls).workflowRequests,
          row.id = request.id ∧ row.status = .completed) ↔
      ReflTransGen ((db.definition request.workflowId).Leads casts request.requestData)
        request.currentStepId none := by
  have hdb := hreachable.wellFormed
  obtain ⟨hplace, -⟩ := place_caseOf hdb hrequest
  have hcase : ∀ calls, ∀ row ∈ (runCalls db calls).workflowRequests, row.id = request.id →
      (row.status = .completed ↔
        (SerialRun.after (Case.rule (db.definition request.workflowId)) (caseOf db request)
          (SerialRun.inputs (Call.rulingOn request.id) calls)).place = none) := by
    intro calls row hrow hid
    have hafter := wellFormed_runCalls hdb calls
    have hcase := case?_runCalls hdb hrequest calls
    rw [← hid, case?_of_mem hafter hrow, Option.some.injEq, hid] at hcase
    rw [← hcase]
    exact (place_caseOf hafter hrow).2
  constructor
  · intro hcompleted
    obtain ⟨calls, hcasts, row, hrow, hid, hstatus⟩ := hcompleted
    have hrulings : ∀ ruling ∈ SerialRun.inputs (Call.rulingOn request.id) calls,
        ruling.env.castsArray = casts := by
      intro ruling hruling
      obtain ⟨call, hcall, hread⟩ := List.mem_filterMap.mp hruling
      rw [env_of_rulingOn hread]
      exact hcasts call hcall
    have hpath := @path_of_rulings (db.definition request.workflowId) casts (caseOf db request)
      _ hrulings
    rw [(hcase calls row hrow hid).mp hstatus, hplace] at hpath
    exact hpath
  · intro hpath
    obtain ⟨rulings, hcasts, hreached⟩ :=
      rulings_of_path hadmin hfits hpath (caseOf db request) hplace rfl
    obtain ⟨row, hrow, hcarries⟩ := (continues_runCalls hdb
      (rulings.map (Ruling.callOn request.id))).requests request hrequest
    refine ⟨rulings.map (Ruling.callOn request.id), List.forall_mem_map.mpr hcasts, row, hrow,
      hcarries.id, ?_⟩
    rw [hcase _ row hrow hcarries.id, inputs_callOn]
    exact hreached

end Requests

theorem completable_iff_opened :
    ∃ request ∈ Sample.opened.workflowRequests,
      ReflTransGen ((Sample.opened.definition request.workflowId).Leads (fun _ => false)
        request.requestData) request.currentStepId none := by
  obtain ⟨request, hrequest, hid⟩ :
      ∃ request ∈ Sample.opened.workflowRequests, request.id = 5 := by
    decide +kernel
  obtain ⟨row, hrow, hrowId, hstatus⟩ :
      ∃ row ∈ (runCalls Sample.opened [Sample.approval, Sample.approval]).workflowRequests,
        row.id = 5 ∧ row.status = .completed := by
    decide +kernel
  have hfits : ∀ step ∈ Sample.opened.workflowSteps,
      (Sample.noon.addHours step.slaHours).isSome := by
    decide +kernel
  refine ⟨request, hrequest, (completable_iff (fun _ => false) Sample.opened_reachable hrequest
    (show isAdmin Sample.admin = true by decide)
    fun step hstep => hfits step (List.mem_of_mem_filter hstep)).mp
      ⟨[Sample.approval, Sample.approval], ?_, row, hrow, hrowId.trans hid.symm, hstatus⟩⟩
  intro call hcall
  rw [List.mem_cons, List.mem_singleton, or_self] at hcall
  rw [hcall]
  rfl

end WorkflowPlatform
