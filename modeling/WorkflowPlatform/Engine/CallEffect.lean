import WorkflowPlatform.Engine.DecisionEffect
import WorkflowPlatform.Engine.DefinitionEffect
import WorkflowPlatform.Engine.ScanEffect
import WorkflowPlatform.Engine.StartEffect

/-! # What a call can do

A call is refused and leaves the state it met, or it does the one thing its kind
does. Whatever holds of every call is shown by going through these effects.
-/

namespace WorkflowPlatform

open Python WorkflowEngine

/-- A user submits a decision for a request, by outcome or by action. -/
inductive Submits (requestId : Uuid) (user : User) : Call → Prop
  | process (env : Env) (outcome : String) (context : Option Dict) :
      Submits requestId user (.processStep env requestId user outcome context)
  | decide (env : Env) (payload : Dict) :
      Submits requestId user (.makeDecision env requestId user payload)

/-- The state a call leaves, by what it did. -/
inductive Effect (db : Database) : Call → Database → Prop
  | refused (call : Call) : Effect db call db
  | defined (env : Env) (payload : WorkflowCreate) (creatorId : Uuid) :
      Effect db (.createWorkflow env payload creatorId)
        (WorkflowService.withDefinition db payload creatorId)
  | deleted (env : Env) (workflowId : Uuid) (db' : Database)
      (hdeleted : db.deleteWorkflow? workflowId = some db') :
      Effect db (.deleteWorkflow env workflowId) db'
  | started (env : Env) (workflowId requesterId : Uuid) (data : Dict) (workflow : Workflow)
      (first : WorkflowStep) (deadline : DateTime)
      (hworkflow : activeWorkflow db workflowId = some workflow)
      (hfirst : firstStep env.stepOrder db workflowId = some first)
      (hdeadline : (env.utcnow 0).addHours first.slaHours = some deadline) :
      Effect db (.startWorkflow env workflowId requesterId data)
        (startedAt env db workflowId requesterId data first deadline)
  | decided (call : Call) (requestId : Uuid) (user : User) (outcome : String)
      (context : Option Dict) (request : WorkflowRequest) (exec : RequestStep)
      (status : Option StepStatus) (db' : Database) (hsubmits : Submits requestId user call)
      (haccepts : call.accepted db = true) (houtcome : call.outcome? = some outcome)
      (haccepted : Accepted call.env db requestId user outcome context request exec status)
      (hrouted : Routed call.env db user outcome context request exec status db') :
      Effect db call db'
  | scanned (env : Env) : Effect db (.scanForBreaches env) (SLAMonitor.scanned env db)

variable {db : Database} {requestId : Uuid} {user : User} {call : Call}

/-! ## Decisions -/

/-- A submission is refused and changes nothing, or it is a decision that commits. -/
theorem submits_cases (hsubmits : Submits requestId user call) (db : Database) :
    (call.accepted db = false ∧ call.perform db = db) ∨
      (call.accepted db = true ∧ ∃ outcome context, call.outcome? = some outcome ∧
        decided call.env db requestId user outcome context = some (call.perform db)) := by
  have hprocess : ∀ env outcome context,
      let call := Call.processStep env requestId user outcome context
      (call.accepted db = false ∧ call.perform db = db) ∨
        (call.accepted db = true ∧
          decided env db requestId user outcome context = some (call.perform db)) := by
    intro env outcome context call
    simp only [call, perform_processStep, accepted_processStep]
    cases hdecided : decided env db requestId user outcome context with
    | none => exact .inl ⟨rfl, rfl⟩
    | some db' => exact .inr ⟨rfl, rfl⟩
  cases hsubmits with
  | process env outcome context =>
      rcases hprocess env outcome context with hrefused | ⟨haccepts, hdecided⟩
      · exact .inl hrefused
      · exact .inr ⟨haccepts, outcome, context, rfl, hdecided⟩
  | decide env payload =>
      rcases makeDecision_cases requestId payload with ⟨outcome, houtcome, heq⟩ | ⟨-, heq⟩
      · rw [(heq env db user).1, (heq env db user).2]
        rcases hprocess env outcome (some (Endpoint.decisionContext payload)) with
          hrefused | ⟨haccepts, hdecided⟩
        · exact .inl hrefused
        · exact .inr ⟨haccepts, outcome, _, by rw [Call.outcome?, houtcome]; rfl, hdecided⟩
      · exact .inl ⟨(heq env db user).2, (heq env db user).1⟩

theorem effect_submission (hsubmits : Submits requestId user call) (db : Database) :
    Effect db call (call.perform db) := by
  rcases submits_cases hsubmits db with ⟨-, hperform⟩ |
    ⟨haccepts, outcome, context, houtcome, hdecided⟩
  · rw [hperform]
    exact .refused call
  · obtain ⟨request, exec, status, haccepted, hrouted⟩ := decided_iff.mp hdecided
    exact .decided call requestId user outcome context request exec status _ hsubmits haccepts
      houtcome haccepted hrouted

/-! ## Scans -/

theorem perform_scanForBreaches (env : Env) (db : Database) :
    (Call.scanForBreaches env).perform db = SLAMonitor.scanned env db := by
  rw [Call.perform, SLAMonitor.perform_scan]
  split
  · next hfails => rw [SLAMonitor.scanned, if_pos hfails.2]
  · rfl

/-! ## Every call -/

/-- No call does anything else. A start needs that the identifier it draws is no
request's yet. -/
theorem effect_perform (hfresh : ∀ request ∈ db.workflowRequests, request.id ≠ db.nextId)
    (call : Call) : Effect db call (call.perform db) := by
  cases call with
  | createWorkflow env payload creatorId =>
      rcases WorkflowService.perform_createWorkflow env payload creatorId db with
        ⟨error, -, hstate⟩ | ⟨-, hstate⟩
      · rw [Call.perform, hstate]
        exact .refused _
      · rw [Call.perform, hstate]
        exact .defined env payload creatorId
  | deleteWorkflow env workflowId =>
      rw [WorkflowService.perform_deleteWorkflow]
      split
      · exact .refused _
      · cases hdeleted : db.deleteWorkflow? workflowId with
        | none => exact .refused _
        | some db' => exact .deleted env workflowId db' hdeleted
  | startWorkflow env workflowId requesterId data =>
      rw [perform_startWorkflow hfresh]
      cases hstarted : started env db workflowId requesterId data with
      | none => exact .refused _
      | some db' =>
          obtain ⟨workflow, first, deadline, hworkflow, hfirst, hdeadline, -, rfl⟩ :=
            started_iff.mp hstarted
          exact .started env workflowId requesterId data workflow first deadline hworkflow hfirst
            hdeadline
  | processStep env requestId user outcome context =>
      exact effect_submission (.process env outcome context) db
  | makeDecision env requestId user payload => exact effect_submission (.decide env payload) db
  | scanForBreaches env =>
      rw [perform_scanForBreaches]
      exact .scanned env

end WorkflowPlatform
