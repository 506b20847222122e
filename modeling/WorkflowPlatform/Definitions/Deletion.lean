import WorkflowPlatform.Foundation.Cascade
import WorkflowPlatform.Lifecycle.Reachable

/-! # Deleting a definition

The database would cascade the deletion of a workflow into its requests. The mapped
classes do not: the unit of work follows their relationships, and it finds the requests
first. A workflow without requests goes with its steps and transitions, and with nothing
else.
-/

namespace WorkflowPlatform

open Python Tx

/-! ## The relationships of the mapped classes -/

/-- A loaded object. -/
inductive Entity
  | workflow (row : Workflow)
  | workflowStep (row : WorkflowStep)
  | stepTransition (row : StepTransition)
  | workflowRequest (row : WorkflowRequest)
  | requestStep (row : RequestStep)
  | requestStateHistory (row : RequestStateHistory)
  | auditLog (row : AuditLog)
  | slaEscalation (row : SLAEscalation)

/-- An object has a row. -/
def Stored (db : Database) : Entity → Prop
  | .workflow row => row ∈ db.workflows
  | .workflowStep row => row ∈ db.workflowSteps
  | .stepTransition row => row ∈ db.stepTransitions
  | .workflowRequest row => row ∈ db.workflowRequests
  | .requestStep row => row ∈ db.requestSteps
  | .requestStateHistory row => row ∈ db.requestStateHistory
  | .auditLog row => row ∈ db.auditLogs
  | .slaEscalation row => row ∈ db.slaEscalations

/-- The relationships from one object to many, by the class and the attribute. -/
inductive Relationship
  | workflowSteps
  | workflowRequests
  | stepTransitionsFrom
  | stepTransitionsTo
  | stepRequestSteps
  | requestRequestSteps
  | requestStateHistory
  | requestStepEscalations

namespace Relationship

/-- The relationships declared with `cascade="all, delete-orphan"`. -/
def cascades : Relationship → Bool
  | workflowRequests | stepRequestSteps => false
  | _ => true

/-- The relationships whose foreign key must not be null. -/
def required : Relationship → Bool
  | stepTransitionsTo => false
  | _ => true

/-- A stored object refers to another through the key of a relationship. -/
inductive Refers (db : Database) : Relationship → Entity → Entity → Prop
  | workflowStep {step : WorkflowStep} {workflow : Workflow} (hstep : step ∈ db.workflowSteps)
      (hkey : step.workflowId = workflow.id) :
      Refers db workflowSteps (.workflowStep step) (.workflow workflow)
  | workflowRequest {request : WorkflowRequest} {workflow : Workflow}
      (hrequest : request ∈ db.workflowRequests) (hkey : request.workflowId = workflow.id) :
      Refers db workflowRequests (.workflowRequest request) (.workflow workflow)
  | transitionFrom {edge : StepTransition} {step : WorkflowStep}
      (hedge : edge ∈ db.stepTransitions) (hkey : edge.fromStepId = step.id) :
      Refers db stepTransitionsFrom (.stepTransition edge) (.workflowStep step)
  | transitionTo {edge : StepTransition} {step : WorkflowStep}
      (hedge : edge ∈ db.stepTransitions) (hkey : edge.toStepId = some step.id) :
      Refers db stepTransitionsTo (.stepTransition edge) (.workflowStep step)
  | stepExecution {exec : RequestStep} {step : WorkflowStep} (hexec : exec ∈ db.requestSteps)
      (hkey : exec.stepId = step.id) :
      Refers db stepRequestSteps (.requestStep exec) (.workflowStep step)
  | requestExecution {exec : RequestStep} {request : WorkflowRequest}
      (hexec : exec ∈ db.requestSteps) (hkey : exec.requestId = request.id) :
      Refers db requestRequestSteps (.requestStep exec) (.workflowRequest request)
  | historyEntry {entry : RequestStateHistory} {request : WorkflowRequest}
      (hentry : entry ∈ db.requestStateHistory) (hkey : entry.requestId = request.id) :
      Refers db requestStateHistory (.requestStateHistory entry) (.workflowRequest request)
  | escalation {escalation : SLAEscalation} {exec : RequestStep}
      (hescalation : escalation ∈ db.slaEscalations) (hkey : escalation.requestStepId = exec.id) :
      Refers db requestStepEscalations (.slaEscalation escalation) (.requestStep exec)

end Relationship

/-- The stored objects as the unit of work sees them. -/
def unitOfWork (db : Database) : Cascade Entity Relationship where
  refers := Relationship.Refers db
  cascades := Relationship.cascades
  required := Relationship.required

variable {db : Database} {workflow : Workflow}

/-- A transition that leaves or enters a step of a workflow. -/
def Touches (db : Database) (workflowId : Uuid) (edge : StepTransition) : Prop :=
  db.HasStep workflowId edge.fromStepId ∨ ∃ target ∈ edge.toStepId, db.HasStep workflowId target

/-- What a workflow takes with it. -/
inductive BelongsTo (db : Database) (workflow : Workflow) : Entity → Prop
  | self : BelongsTo db workflow (.workflow workflow)
  | step {step : WorkflowStep} (hstep : step ∈ db.workflowSteps)
      (hworkflow : step.workflowId = workflow.id) : BelongsTo db workflow (.workflowStep step)
  | transition {edge : StepTransition} (hedge : edge ∈ db.stepTransitions)
      (htouches : Touches db workflow.id edge) : BelongsTo db workflow (.stepTransition edge)

/-- Deleting a workflow dooms its steps and the transitions at them. -/
theorem doomed_iff (entity : Entity) :
    (unitOfWork db).Doomed (.workflow workflow) entity ↔ BelongsTo db workflow entity := by
  have hpasses : ∀ {link child parent}, (unitOfWork db).cascades link = true →
      (unitOfWork db).refers link child parent →
      (unitOfWork db).Doomed (.workflow workflow) parent →
      (unitOfWork db).Doomed (.workflow workflow) child := Cascade.Doomed.child
  have hgoes : ∀ {step : WorkflowStep}, step ∈ db.workflowSteps → step.workflowId = workflow.id →
      (unitOfWork db).Doomed (.workflow workflow) (.workflowStep step) := fun hstep hkey =>
    hpasses rfl (.workflowStep hstep hkey) .root
  constructor
  · refine Cascade.Doomed.of_closed .self ?_
    intro link child parent hcascades hrefers hparent
    cases hrefers with
    | workflowStep hstep hkey =>
        cases hparent
        exact .step hstep hkey
    | transitionFrom hedge hkey =>
        cases hparent with
        | step hstep hworkflow => exact .transition hedge (.inl ⟨_, hstep, hkey.symm, hworkflow⟩)
    | transitionTo hedge hkey =>
        cases hparent with
        | step hstep hworkflow =>
            exact .transition hedge (.inr ⟨_, hkey, _, hstep, rfl, hworkflow⟩)
    | workflowRequest | stepExecution => cases hcascades
    | requestExecution | historyEntry | escalation => cases hparent
  · intro hbelongs
    cases hbelongs with
    | self => exact .root
    | step hstep hworkflow => exact hgoes hstep hworkflow
    | transition hedge htouches =>
        rcases htouches with ⟨step, hstep, hid, hworkflow⟩ |
          ⟨_, htarget, step, hstep, rfl, hworkflow⟩
        · exact hpasses rfl (.transitionFrom hedge hid.symm) (hgoes hstep hworkflow)
        · exact hpasses rfl (.transitionTo hedge htarget) (hgoes hstep hworkflow)

/-- The requests of a workflow and the executions of its steps stand in the way. -/
theorem deletable_iff :
    (unitOfWork db).Deletable (.workflow workflow) ↔
      (∀ request ∈ db.workflowRequests, request.workflowId ≠ workflow.id) ∧
        ∀ exec ∈ db.requestSteps, ¬db.HasStep workflow.id exec.stepId := by
  rw [Cascade.deletable_iff doomed_iff]
  constructor
  · intro hdeletable
    refine ⟨fun request hrequest hkey => ?_, ?_⟩
    · have hbelongs := hdeletable _ _ _ rfl rfl (.workflowRequest hrequest hkey) .self
      cases hbelongs
    · rintro exec hexec ⟨step, hstep, hid, hworkflow⟩
      have hbelongs := hdeletable _ _ _ rfl rfl (.stepExecution hexec hid.symm)
        (.step hstep hworkflow)
      cases hbelongs
  · rintro ⟨hrequests, hexecs⟩ link child parent hkeeps - hrefers hparent
    cases hrefers with
    | workflowRequest hrequest hkey =>
        cases hparent
        exact absurd hkey (hrequests _ hrequest)
    | stepExecution hexec hkey =>
        cases hparent with
        | step hstep hworkflow => exact absurd ⟨_, hstep, hkey.symm, hworkflow⟩ (hexecs _ hexec)
    | workflowStep | transitionFrom | transitionTo | requestExecution | historyEntry | escalation =>
        cases hkeeps

/-! ## The deletion follows the relationships -/

theorem workflow_keys_perform (hdb : WellFormed db) (hkeys : (db.workflows.map (·.id)).Nodup)
    (call : Call) : ((call.perform db).workflows.map (·.id)).Nodup := by
  have heffect := hdb.effect_perform call
  generalize call.perform db = db' at heffect ⊢
  cases heffect with
  | defined env payload creatorId =>
      exact Keyed.nodup_concat hkeys fun other hother => (hdb.workflow_fresh other hother).ne
  | deleted env workflowId db' hdeleted =>
      obtain ⟨-, -, rfl⟩ := Database.deleteWorkflow?_eq_some hdeleted
      exact hkeys.sublist (List.filter_sublist.map _)
  | decided call requestId user outcome context request exec status db' _ _ _ _ hrouted =>
      cases hrouted <;> exact hkeys
  | scanned env =>
      obtain ⟨items, hscanned, -⟩ := scanned_eq_escalated hdb env
      rw [hscanned]
      refine SLAMonitor.escalated_induction (fun db => (db.workflows.map (·.id)).Nodup) ?_ hkeys
      intro db item _ hkeys
      exact hkeys
  | refused | started => exact hkeys

/-- No two workflows have one identifier. -/
theorem Reachable.workflow_keys (hreachable : Reachable db) :
    (db.workflows.map (·.id)).Nodup := by
  apply hreachable.induction (fun db => (db.workflows.map (·.id)).Nodup) List.nodup_nil
  intro db call hdb hkeys
  exact workflow_keys_perform hdb hkeys call

/-- The database accepts the deletions that the relationships allow. -/
theorem deleteWorkflow?_isSome_iff :
    (db.deleteWorkflow? workflow.id).isSome ↔ (unitOfWork db).Deletable (.workflow workflow) := by
  rw [deletable_iff]
  constructor
  · intro hdeleted
    obtain ⟨db', hdeleted⟩ := Option.isSome_iff_exists.mp hdeleted
    obtain ⟨hrequests, hexecs, -⟩ := Database.deleteWorkflow?_eq_some hdeleted
    exact ⟨hrequests, hexecs⟩
  · rintro ⟨hrequests, hexecs⟩
    rw [Database.deleteWorkflow?, if_neg]
    · rfl
    · simpa [Database.mem_gone_iff] using ⟨hrequests, hexecs⟩

/-- The rows that stay are those of the objects that are not doomed. -/
theorem stored_deleted (hdb : WellFormed db) (hkeys : (db.workflows.map (·.id)).Nodup)
    (hworkflow : workflow ∈ db.workflows) {db' : Database}
    (hdeleted : db.deleteWorkflow? workflow.id = some db') (entity : Entity) :
    Stored db' entity ↔
      Stored db entity ∧ ¬(unitOfWork db).Doomed (.workflow workflow) entity := by
  rw [doomed_iff]
  have hrequests := workflowRequests_deleted hdb hdeleted
  obtain ⟨-, -, hdb'⟩ := Database.deleteWorkflow?_eq_some hdeleted
  cases entity with
  | workflow row =>
      have hother : row ∈ db.workflows →
          (row.id ≠ workflow.id ↔ ¬BelongsTo db workflow (.workflow row)) := by
        intro hrow
        refine not_congr ⟨fun hid => ?_, fun hbelongs => ?_⟩
        · exact Keyed.ext hkeys hrow hworkflow hid ▸ .self
        · cases hbelongs
          rfl
      simp only [Stored, hdb', List.mem_filter, decide_eq_true_eq]
      exact and_congr_right hother
  | workflowStep row =>
      simp only [Stored, hdb', List.mem_filter, decide_eq_true_eq]
      refine and_congr_right fun hrow => not_congr ⟨fun hkey => .step hrow hkey, fun hbelongs => ?_⟩
      cases hbelongs with
      | step _ hkey => exact hkey
  | stepTransition row =>
      simp only [Stored, hdb', List.mem_filter, decide_eq_true_eq, Database.mem_gone_iff]
      apply and_congr_right
      intro hrow
      have htouches : BelongsTo db workflow (.stepTransition row) ↔ Touches db workflow.id row :=
        ⟨fun hbelongs => by cases hbelongs; assumption, .transition hrow⟩
      rw [htouches, Touches]
      simp
  | workflowRequest row =>
      simp only [Stored, hrequests]
      exact ⟨fun hrow => ⟨hrow, fun hbelongs => by cases hbelongs⟩, And.left⟩
  | requestStep row | requestStateHistory row | auditLog row | slaEscalation row =>
      simp only [Stored, hdb']
      exact ⟨fun hrow => ⟨hrow, fun hbelongs => by cases hbelongs⟩, And.left⟩

/-! ## Requests are in the way -/

/-- A workflow that a request refers to cannot be deleted. Any other one goes with its steps
and the transitions at them, and every other row stays as it was. -/
theorem deletion_keeps_requests (hreachable : Reachable db) (hworkflow : workflow ∈ db.workflows)
    (env : Env) :
    let finished := Tx.perform (WorkflowService.deleteWorkflow env workflow.id) db
    ((∃ request ∈ db.workflowRequests, request.workflowId = workflow.id) →
        finished.result = .error .databaseError ∧ finished.state = db) ∧
      ((∀ request ∈ db.workflowRequests, request.workflowId ≠ workflow.id) →
        if env.dbFails 0 then finished.result = .error .databaseError ∧ finished.state = db
        else finished.result = .ok () ∧ ∀ entity,
          Stored finished.state entity ↔ Stored db entity ∧ ¬BelongsTo db workflow entity) := by
  have hdb := hreachable.wellFormed
  have hkeys := hreachable.workflow_keys
  have hfound : db.workflow? workflow.id = some workflow :=
    (Keyed.find?_eq_some_iff hkeys).mpr ⟨hworkflow, rfl⟩
  intro finished
  have hfinished : finished = _ := WorkflowService.perform_deleteWorkflow_of_found env hfound
  rw [hfinished]
  constructor
  · rintro ⟨request, hrequest, hkey⟩
    have hrefused : db.deleteWorkflow? workflow.id = none := by
      rw [← Option.not_isSome_iff_eq_none, deleteWorkflow?_isSome_iff, deletable_iff]
      exact fun hdeletable => hdeletable.1 request hrequest hkey
    rw [hrefused, ite_self]
    exact ⟨rfl, rfl⟩
  · intro hrequests
    cases hcommit : env.dbFails 0 with
    | true =>
        simp only [if_true, and_self]
    | false =>
        -- an execution at one of the steps would belong to a request for the workflow
        have hexecs : ∀ exec ∈ db.requestSteps, ¬db.HasStep workflow.id exec.stepId := by
          intro exec hexec hstep
          obtain ⟨request, hrequest, hid⟩ := hdb.execution_request exec hexec
          have hown := hdb.hasStep_of_execution hrequest
            (WellFormed.mem_executions.mpr ⟨hexec, hid.symm⟩)
          exact hrequests request hrequest (hdb.toWellDefined.hasStep_unique hown hstep)
        obtain ⟨db', hdeleted⟩ := Option.isSome_iff_exists.mp
          (deleteWorkflow?_isSome_iff.mpr (deletable_iff.mpr ⟨hrequests, hexecs⟩))
        simp only [Bool.false_eq_true, if_false, hdeleted, true_and]
        intro entity
        rw [stored_deleted hdb hkeys hworkflow hdeleted, doomed_iff]

/-! ### A definition in use and one that is not -/

namespace Sample

/-- The definition of `approvals` under another name. -/
def travel : WorkflowCreate :=
  { approvals with name := "Travel", name_length := by decide }

/-- A request for the first of two definitions. -/
def oneInUse : List Call :=
  opening approvals [] ++ [.createWorkflow (.calm noon) travel 0]

end Sample

theorem deletion_keeps_requests_approvals :
    let db := runCalls Database.empty Sample.oneInUse
    let delete := WorkflowService.deleteWorkflow (.calm Sample.noon)
    ((Tx.perform (delete 0) db).result = .error .databaseError ∧
        (Tx.perform (delete 0) db).state = db) ∧
      (Tx.perform (delete 9) db).result = .ok () := by
  obtain ⟨⟨used, hused, hid⟩, unused, hunused, hid'⟩ :
      (∃ workflow ∈ (runCalls Database.empty Sample.oneInUse).workflows, workflow.id = 0) ∧
        ∃ workflow ∈ (runCalls Database.empty Sample.oneInUse).workflows, workflow.id = 9 := by
    decide +kernel
  have hrefused := (deletion_keeps_requests ⟨_, rfl⟩ hused (.calm Sample.noon)).1
  have hremoved := (deletion_keeps_requests ⟨_, rfl⟩ hunused (.calm Sample.noon)).2
  rw [hid] at hrefused
  rw [hid'] at hremoved
  exact ⟨hrefused (by decide +kernel), (hremoved (by decide +kernel)).1⟩

end WorkflowPlatform
