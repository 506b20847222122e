import WorkflowPlatform.Api.RequestView
import WorkflowPlatform.Ledger.Requests

/-! # The timeline of a request

The request page shows the steps of the response and offers a decision on the first pending one.
No response lists any steps, so the page shows no execution and offers no decision.
-/

namespace WorkflowPlatform

open Python WorkflowEngine Attributes

/-! ## The page -/

namespace RequestExecutionPage

def currentStep (response : WorkflowRequestSchema) : Option RequestStepSchema :=
  response.steps.find? (·.status = "PENDING")

/-- The steps in the order of their definitions. -/
def timeline (response : WorkflowRequestSchema) : List RequestStepSchema :=
  response.steps.mergeSort fun first second => first.stepOrder.getD 0 ≤ second.stepOrder.getD 0

end RequestExecutionPage

open RequestExecutionPage

/-! ## What it is to show -/

/-- The fields of a step that a reader sees. -/
structure Shown where
  id : Uuid
  status : String
  deadline : Option DateTime
  stepName : Option String
  stepOrder : Option ℤ

def RequestStepSchema.shown (step : RequestStepSchema) : Shown :=
  ⟨step.id, step.status, step.deadline, step.stepName, step.stepOrder⟩

/-- An execution as it is to be shown, under the name and the order of its step. -/
def RequestStep.shown (db : Database) (exec : RequestStep) : Shown :=
  let step := db.step? exec.stepId
  ⟨exec.id, exec.status.value, exec.deadline, step.map (·.name), step.map (·.stepOrder)⟩

/-- The steps of a response are the executions of the request, one for one. -/
def ShowsExecution (db : Database) (request : WorkflowRequest) (response : WorkflowRequestSchema) :
    Prop :=
  (response.steps.map (·.shown)).Perm ((db.executions request.id).map (·.shown db))

/-- The page finds the open execution. -/
def FindsOpenStep (db : Database) (request : WorkflowRequest) (response : WorkflowRequestSchema) :
    Prop :=
  ∃ found exec, currentStep response = some found ∧ exec ∈ db.openExecutions request.id ∧
    found.id = exec.id

variable {db : Database} {request : WorkflowRequest}

/-- The overridden `model_validate` reads an execution as it is to be shown. -/
theorem shown_of_modelValidate {exec : RequestStep} {step : RequestStepSchema}
    (hread : RequestStepSchema.modelValidate db exec = .ok step) :
    step.shown = exec.shown db := by
  rw [RequestStepSchema.modelValidate, RequestStepSchema.ofAttributes_eq] at hread
  cases hstep : db.step? exec.stepId with
  | some row =>
      simp only [hstep] at hread
      cases hread
      simp [RequestStep.shown, RequestStepSchema.shown, hstep]
  | none =>
      simp only [hstep] at hread
      cases hread
      simp [RequestStep.shown, RequestStepSchema.shown, hstep]

/-! ## What it shows -/

/-- Every request has a requester. -/
theorem Reachable.requester_isSome (hreachable : Reachable db) :
    ∀ request ∈ db.workflowRequests, request.requesterId.isSome := by
  obtain ⟨calls, rfl⟩ := hreachable
  refine requests_runCalls (fun _ request => request.requesterId.isSome) ?_ calls
  intro db call request' hdb hlogs hall heffect
  cases heffect with
  | alone hrequest halone => exact hall request' hrequest
  | started env workflowId requesterId data first deadline hdb' hrequest' =>
      rw [hrequest']
      rfl
  | moved env user outcome context request decided exec status nextStep deadline hrequest hactive
      hstatus hdb' hrequest' =>
      rw [hrequest', movedRequest_eq]
      exact hall request hrequest
  | finished env user outcome context request decided exec status hrequest hactive hstatus hdb'
      hrequest' =>
      rw [hrequest']
      exact hall request hrequest

/-- Every request has a response, and no response lists steps. -/
theorem readRequest_eq_ok (hreachable : Reachable db) (hrequest : request ∈ db.workflowRequests)
    (updatedAt : Uuid → DateTime) :
    ∃ response, RequestView.readRequest updatedAt db request.id = .ok response ∧
      response.steps = [] := by
  have hfound : db.request? request.id = some request :=
    hreachable.wellFormed.request?_eq_some_iff.mpr ⟨hrequest, rfl⟩
  obtain ⟨requesterId, hrequester⟩ :=
    Option.isSome_iff_exists.mp (hreachable.requester_isSome request hrequest)
  simp only [RequestView.readRequest, hfound, WorkflowRequestSchema.ofAttributes_eq, hrequester]
  exact ⟨_, rfl, rfl⟩

/-- No response shows the execution of its request, which was at some step already. The page
offers no decision and its timeline is empty, whatever state the request is in. -/
theorem request_view_empty (hreachable : Reachable db) (hrequest : request ∈ db.workflowRequests)
    (updatedAt : Uuid → DateTime) :
    ∃ response, RequestView.readRequest updatedAt db request.id = .ok response ∧
      ¬(ShowsExecution db request response ∧
        (FindsOpenStep db request response ↔ request.status = .inProgress)) ∧
      currentStep response = none ∧ timeline response = [] := by
  obtain ⟨response, hread, hsteps⟩ := readRequest_eq_ok hreachable hrequest updatedAt
  refine ⟨response, hread, ?_, ?_, ?_⟩
  · -- the empty list corresponds to no executions only
    rintro ⟨hshows, -⟩
    rw [ShowsExecution, hsteps, List.map_nil, List.nil_perm, List.map_eq_nil_iff] at hshows
    exact hreachable.wellFormed.executions_ne_nil hrequest hshows
  · rw [currentStep, hsteps, List.find?_nil]
  · rw [timeline, hsteps, List.mergeSort_nil]

/-! ### A request under review -/

namespace Sample

/-- A request that waits for its first review. -/
def waiting : Database := runCalls Database.empty (opening approvals [])

theorem waiting_reachable : Reachable waiting := ⟨opening approvals [], rfl⟩

theorem waiting_inProgress :
    ∃ request ∈ waiting.workflowRequests, request.status = .inProgress := by
  decide +kernel

end Sample

theorem request_view_empty_waiting :
    ∃ request ∈ Sample.waiting.workflowRequests, request.status = .inProgress ∧
      ∃ response, RequestView.readRequest (fun _ => Sample.noon) Sample.waiting request.id =
          .ok response ∧
        ¬(ShowsExecution Sample.waiting request response ∧
          (FindsOpenStep Sample.waiting request response ↔ request.status = .inProgress)) ∧
        currentStep response = none ∧ timeline response = [] := by
  obtain ⟨request, hrequest, hstatus⟩ := Sample.waiting_inProgress
  exact ⟨request, hrequest, hstatus,
    request_view_empty Sample.waiting_reachable hrequest fun _ => Sample.noon⟩

/-- A request that waits for a review is shown without it. -/
theorem waiting_request_unseen :
    ¬∀ (updatedAt : Uuid → DateTime) (db : Database), Reachable db →
      ∀ request ∈ db.workflowRequests, ∃ response,
        RequestView.readRequest updatedAt db request.id = .ok response ∧
          ShowsExecution db request response ∧
          (FindsOpenStep db request response ↔ request.status = .inProgress) := by
  intro hshown
  obtain ⟨request, hrequest, hstatus⟩ := Sample.waiting_inProgress
  obtain ⟨response, hread, -, hfinds⟩ :=
    hshown (fun _ => Sample.noon) Sample.waiting Sample.waiting_reachable request hrequest
  obtain ⟨found, exec, hfound, -⟩ := hfinds.mpr hstatus
  obtain ⟨other, hother, hsteps⟩ :=
    readRequest_eq_ok Sample.waiting_reachable hrequest fun _ => Sample.noon
  rw [hread] at hother
  obtain rfl := Except.ok.inj hother
  rw [currentStep, hsteps, List.find?_nil] at hfound
  cases hfound

end WorkflowPlatform
