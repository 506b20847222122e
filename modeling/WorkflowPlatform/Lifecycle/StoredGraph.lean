import WorkflowPlatform.Lifecycle.DefinitionChanges

/-! # The graph a creation stores

A creation stores every submitted step, and every submitted transition whose
source order is the order of a submitted step. A target order that no step has is
stored as no target.
-/

namespace WorkflowPlatform

open Python WorkflowService

/-- The steps a call adds. -/
def addedSteps (db db' : Database) : List WorkflowStep :=
  db'.workflowSteps.drop db.workflowSteps.length

/-- The transitions a call adds. -/
def addedTransitions (db db' : Database) : List StepTransition :=
  db'.stepTransitions.drop db.stepTransitions.length

/-- A stored step is the submitted one, under an identifier of its own. -/
def StoresStep (workflowId : Uuid) (submitted : WorkflowStepCreate) (stored : WorkflowStep) :
    Prop :=
  stored = stepRow workflowId submitted stored.id

/-- A stored transition joins steps that have the submitted orders, under the
submitted outcome and guard. -/
structure Joins (steps : List WorkflowStep) (submitted : StepTransitionCreate)
    (stored : StepTransition) : Prop where
  source : ∃ step ∈ steps, step.id = stored.fromStepId ∧ step.stepOrder = submitted.fromStepOrder
  target : ∀ stepId ∈ stored.toStepId,
    ∃ step ∈ steps, step.id = stepId ∧ submitted.toStepOrder = some step.stepOrder
  outcome : stored.outcome = submitted.outcome
  conditionConfig : stored.conditionConfig = submitted.conditionConfig

/-- Some submitted step has this order. -/
def WorkflowCreate.HasOrder (payload : WorkflowCreate) (order : ℤ) : Prop :=
  ∃ stepData ∈ payload.steps, stepData.stepOrder = order

instance (payload : WorkflowCreate) (order : ℤ) : Decidable (payload.HasOrder order) :=
  inferInstanceAs (Decidable (∃ stepData ∈ payload.steps, stepData.stepOrder = order))

variable {db : Database} {payload : WorkflowCreate} {creatorId : Uuid}

theorem storesStep_storedSteps (workflowId id : Uuid) (steps : List WorkflowStepCreate) :
    List.Forall₂ (StoresStep workflowId) steps (storedSteps workflowId id steps) := by
  induction steps generalizing id with
  | nil => exact .nil
  | cons stepData rest ih => exact .cons rfl (ih _)

theorem lookup_isSome_iff (db : Database) (payload : WorkflowCreate) (order : ℤ) :
    ((stepsMapOf (db.nextId + 1) [] payload.steps).lookup order).isSome ↔
      payload.HasOrder order := by
  rw [lookup_stepsMapOf_isSome]
  simp [WorkflowCreate.HasOrder]

/-- A transition with a known source is stored between the steps it names. -/
theorem joins_transitionRow {transData : StepTransitionCreate} {row : Uuid → StepTransition}
    (hrow : transitionRow? (stepsMapOf (db.nextId + 1) [] payload.steps) transData = some row)
    (id : Uuid) :
    Joins (storedSteps db.nextId (db.nextId + 1) payload.steps) transData (row id) ∧
      ((row id).toStepId = none ↔ ∀ order ∈ transData.toStepOrder, ¬payload.HasOrder order) := by
  have hfound : ∀ {order stepId},
      (stepsMapOf (db.nextId + 1) [] payload.steps).lookup order = some stepId →
      ∃ step ∈ storedSteps db.nextId (db.nextId + 1) payload.steps,
        step.id = stepId ∧ step.stepOrder = order := by
    intro order stepId hlookup
    rcases lookup_stepsMapOf db.nextId hlookup with hnil | hstep
    · cases hnil
    · exact hstep
  obtain ⟨fromStepId, hfrom, rfl⟩ := Option.map_eq_some_iff.mp hrow
  refine ⟨⟨hfound hfrom, fun stepId htarget => ?_, rfl, rfl⟩, ?_⟩
  · obtain ⟨order, horder, hlookup⟩ := Option.bind_eq_some_iff.mp htarget
    obtain ⟨step, hstep, hid, rfl⟩ := hfound hlookup
    exact ⟨step, hstep, hid, horder⟩
  · simp only [Option.bind_eq_none_iff, Option.mem_def]
    apply forall₂_congr
    intro order _
    rw [← lookup_isSome_iff db, Option.not_isSome_iff_eq_none]

/-- The stored transitions are the submitted ones with a known source, in order. -/
theorem joins_numbered (transitions : List StepTransitionCreate) (id : Uuid) :
    List.Forall₂ (fun transData stored =>
        Joins (storedSteps db.nextId (db.nextId + 1) payload.steps) transData stored ∧
          (stored.toStepId = none ↔ ∀ order ∈ transData.toStepOrder, ¬payload.HasOrder order))
      (transitions.filter fun transData => payload.HasOrder transData.fromStepOrder)
      (numbered id (transitions.filterMap
        (transitionRow? (stepsMapOf (db.nextId + 1) [] payload.steps)))) := by
  induction transitions generalizing id with
  | nil => exact .nil
  | cons transData rest ih =>
      have hknown := lookup_isSome_iff db payload transData.fromStepOrder
      cases hrow : transitionRow? (stepsMapOf (db.nextId + 1) [] payload.steps) transData with
      | none =>
          rw [Option.map_eq_none_iff.mp hrow] at hknown
          have hunknown : ¬payload.HasOrder transData.fromStepOrder := fun hhas => by
            cases hknown.mpr hhas
          rw [List.filter_cons_of_neg (by simpa using hunknown), List.filterMap_cons_none hrow]
          exact ih id
      | some row =>
          obtain ⟨fromStepId, hfrom, -⟩ := Option.map_eq_some_iff.mp hrow
          rw [hfrom] at hknown
          rw [List.filter_cons_of_pos (by simpa using hknown.mp rfl),
            List.filterMap_cons_some hrow]
          exact .cons (joins_transitionRow hrow id) (ih _)

/-- The stored graph is the submitted one. -/
def StoresSubmitted (steps : List WorkflowStep) (submitted : List StepTransitionCreate)
    (stored : List StepTransition) : Prop :=
  List.Forall₂ (fun submitted stored => Joins steps submitted stored ∧
    (stored.toStepId = none ↔ submitted.toStepOrder = none)) submitted stored

end WorkflowPlatform
