import WorkflowPlatform.Foundation.Journey
import WorkflowPlatform.Engine.DefinitionEffect
import WorkflowPlatform.Engine.DecisionEffect

/-! # Stored definitions

A workflow's steps and transitions are a graph of decisions. Definitions are well
formed when rows have their own identifiers and transitions stay inside one
workflow; creating and deleting keep this, and leave the graphs of the other
workflows as they were.
-/

namespace WorkflowPlatform

open Python

namespace Database

/-- A step of a workflow. -/
def HasStep (db : Database) (workflowId stepId : Uuid) : Prop :=
  ∃ step ∈ db.workflowSteps, step.id = stepId ∧ step.workflowId = workflowId

/-- The graph of a workflow. A decision is an outcome with the data its guards see. -/
def graph (db : Database) (workflowId : Uuid) : DecisionGraph Uuid (String × Dict) where
  entry stepId := ∃ step ∈ db.workflowSteps,
    step.id = stepId ∧ step.workflowId = workflowId ∧ step.stepOrder = 1
  edge stepId decision target := ∃ trans ∈ db.transitionsFrom stepId decision.1,
    WorkflowEngine.enabled decision.2 trans = true ∧ trans.toStepId = target

end Database

/-- Definitions as creating and deleting leave them. -/
structure WellDefined (db : Database) : Prop where
  workflow_fresh : ∀ workflow ∈ db.workflows, workflow.id < db.nextId
  step_keys : (db.workflowSteps.map (·.id)).Nodup
  step_fresh : ∀ step ∈ db.workflowSteps, step.id < db.nextId
  step_workflow : ∀ step ∈ db.workflowSteps,
    ∃ workflow ∈ db.workflows, workflow.id = step.workflowId
  transition_within : ∀ trans ∈ db.stepTransitions, ∃ workflowId,
    db.HasStep workflowId trans.fromStepId ∧
      ∀ target ∈ trans.toStepId, db.HasStep workflowId target

/-- Two states with the same definitions, the second no earlier than the first. -/
structure SameDefinitions (db db' : Database) : Prop where
  workflows : db'.workflows = db.workflows
  workflowSteps : db'.workflowSteps = db.workflowSteps
  stepTransitions : db'.stepTransitions = db.stepTransitions
  nextId_le : db.nextId ≤ db'.nextId

namespace SameDefinitions

variable {db db' : Database} (hsame : SameDefinitions db db')

include hsame

theorem hasStep_iff {workflowId stepId : Uuid} :
    db'.HasStep workflowId stepId ↔ db.HasStep workflowId stepId := by
  rw [Database.HasStep, Database.HasStep, hsame.workflowSteps]

theorem graph_eq (workflowId : Uuid) : db'.graph workflowId = db.graph workflowId := by
  simp only [Database.graph, Database.transitionsFrom, hsame.workflowSteps, hsame.stepTransitions]

theorem step?_eq (stepId : Uuid) : db'.step? stepId = db.step? stepId := by
  rw [Database.step?, Database.step?, hsame.workflowSteps]

theorem wellDefined (hdb : WellDefined db) : WellDefined db' where
  workflow_fresh workflow hworkflow :=
    (hdb.workflow_fresh workflow (hsame.workflows ▸ hworkflow)).trans_le hsame.nextId_le
  step_keys := hsame.workflowSteps ▸ hdb.step_keys
  step_fresh step hstep :=
    (hdb.step_fresh step (hsame.workflowSteps ▸ hstep)).trans_le hsame.nextId_le
  step_workflow := by
    rw [hsame.workflowSteps, hsame.workflows]
    exact hdb.step_workflow
  transition_within := by
    simp only [hsame.stepTransitions, hsame.hasStep_iff]
    exact hdb.transition_within

end SameDefinitions

namespace WellDefined

variable {db : Database} (hdb : WellDefined db)

include hdb

/-! ## Looking steps up -/

theorem step?_eq_some_iff {stepId : Uuid} {step : WorkflowStep} :
    db.step? stepId = some step ↔ step ∈ db.workflowSteps ∧ step.id = stepId :=
  Keyed.find?_eq_some_iff hdb.step_keys

theorem step?_of_hasStep {workflowId stepId : Uuid} (hstep : db.HasStep workflowId stepId) :
    ∃ step, db.step? stepId = some step ∧ step.id = stepId ∧ step.workflowId = workflowId := by
  obtain ⟨step, hmem, hid, hworkflow⟩ := hstep
  exact ⟨step, hdb.step?_eq_some_iff.mpr ⟨hmem, hid⟩, hid, hworkflow⟩

theorem hasStep_unique {first second stepId : Uuid} (hfirst : db.HasStep first stepId)
    (hsecond : db.HasStep second stepId) : first = second := by
  obtain ⟨step, hstep, hid, rfl⟩ := hfirst
  obtain ⟨other, hother, hid', rfl⟩ := hsecond
  rw [Keyed.ext hdb.step_keys hstep hother (hid.trans hid'.symm)]

theorem hasStep_fresh {workflowId stepId : Uuid}
    (hstep : db.HasStep workflowId stepId) : stepId < db.nextId ∧ workflowId < db.nextId := by
  obtain ⟨step, hmem, rfl, rfl⟩ := hstep
  obtain ⟨workflow, hworkflow, hid⟩ := hdb.step_workflow step hmem
  exact ⟨hdb.step_fresh step hmem, hid ▸ hdb.workflow_fresh workflow hworkflow⟩

/-! ## The graph of a workflow -/

omit hdb in
theorem hasStep_of_entry {workflowId stepId : Uuid} (hentry : (db.graph workflowId).entry stepId) :
    db.HasStep workflowId stepId := by
  obtain ⟨step, hstep, hid, hworkflow, -⟩ := hentry
  exact ⟨step, hstep, hid, hworkflow⟩

/-- A transition from a step of a workflow leads to a step of the same workflow. -/
theorem hasStep_of_transition {workflowId target : Uuid} {trans : StepTransition}
    (htrans : trans ∈ db.stepTransitions) (hsource : db.HasStep workflowId trans.fromStepId)
    (htarget : trans.toStepId = some target) : db.HasStep workflowId target := by
  obtain ⟨other, hwithin, htargets⟩ := hdb.transition_within trans htrans
  rw [hdb.hasStep_unique hsource hwithin]
  exact htargets target htarget

theorem hasStep_of_edge (workflowId stepId : Uuid) (decision : String × Dict) (target : Uuid)
    (hstep : db.HasStep workflowId stepId)
    (hedge : (db.graph workflowId).edge stepId decision (some target)) :
    db.HasStep workflowId target := by
  obtain ⟨trans, htrans, -, htarget⟩ := hedge
  simp only [Database.transitionsFrom, List.mem_filter, decide_eq_true_eq] at htrans
  obtain ⟨hmem, rfl, -⟩ := htrans
  exact hdb.hasStep_of_transition hmem hstep htarget

/-- The engine's routing takes an enabled edge of the graph, or ends the journey. -/
theorem resolveNext_edge {workflowId stepId : Uuid} (hstep : db.HasStep workflowId stepId)
    (order : RowOrder StepTransition) (outcome : String) (context : Dict) :
    match WorkflowEngine.resolveNext order db (some stepId) outcome context with
    | some next => (db.graph workflowId).edge stepId (outcome, context) (some next.id)
    | none => (db.graph workflowId).Ends stepId (outcome, context) := by
  simp only [WorkflowEngine.resolveNext, WorkflowEngine.matchingTransitions]
  cases hpick : order.pick (WorkflowEngine.enabled context) (db.transitionsFrom stepId outcome) with
  | none =>
      refine .inr fun target hedge => ?_
      obtain ⟨trans, htrans, henabled, -⟩ := hedge
      rw [RowOrder.pick_eq_none_iff.mp hpick trans htrans] at henabled
      cases henabled
  | some trans =>
      obtain ⟨htrans, henabled⟩ := RowOrder.pick_some hpick
      cases htarget : trans.toStepId with
      | none =>
          simp only [Option.bind_some, htarget, Option.bind_none]
          exact .inl ⟨trans, htrans, henabled, htarget⟩
      | some target =>
          have hmem : trans ∈ db.stepTransitions ∧ trans.fromStepId = stepId := by
            simp only [Database.transitionsFrom, List.mem_filter, decide_eq_true_eq] at htrans
            exact ⟨htrans.1, htrans.2.1⟩
          obtain ⟨next, hnext, hid, -⟩ := hdb.step?_of_hasStep
            (hdb.hasStep_of_transition hmem.1 (hmem.2.symm ▸ hstep) htarget)
          simp only [Option.bind_some, hnext, htarget, hid]
          exact ⟨trans, htrans, henabled, htarget⟩

end WellDefined

end WorkflowPlatform
