import WorkflowPlatform.Client.Payload
import WorkflowPlatform.Foundation.Keyed
import WorkflowPlatform.Foundation.Line

/-! # The wizard of the create page

The page keeps the steps of a workflow under construction, numbers them as they are
shown, links neighbours by the temporary names of the steps, and turns those names
into orders when it submits.
-/

namespace WorkflowPlatform

open Python

namespace CreatePage

/-! ## The page -/

/-- A step under construction. A role of `none` is no restriction. -/
structure Step where
  tempId : String
  name : String
  description : String
  stepOrder : ℕ
  slaHours : ℕ
  requiredRoleId : Option Uuid
  requiredPermissionId : Option Uuid
  isConditional : Bool

/-- A transition between steps; without a target it ends the workflow. -/
structure Transition where
  fromStepTempId : String
  toStepTempId : Option String
  outcome : String

def addStep (tempId : String) (workflowSteps : List Step) : List Step :=
  workflowSteps ++ [{
    tempId := tempId
    name := s!"Step {workflowSteps.length + 1}"
    description := ""
    stepOrder := workflowSteps.length + 1
    slaHours := 24
    requiredRoleId := none
    requiredPermissionId := none
    isConditional := false }]

def removeStep (index : ℕ) (workflowSteps : List Step) : List Step :=
  (workflowSteps.eraseIdx index).mapIdx fun i step => { step with stepOrder := i + 1 }

/-- A value typed or chosen for a step. -/
inductive Field
  | name (value : String)
  | description (value : String)
  | requiredRoleId (value : Option Uuid)

def Field.set : Field → Step → Step
  | .name value, step => { step with name := value }
  | .description value, step => { step with description := value }
  | .requiredRoleId value, step => { step with requiredRoleId := value }

def updateStep (index : ℕ) (field : Field) (workflowSteps : List Step) : List Step :=
  workflowSteps.modify index field.set

/-- What an administrator does on the page. A new step draws a temporary name. -/
inductive Edit
  | addStep (tempId : String)
  | removeStep (index : ℕ)
  | updateStep (index : ℕ) (field : Field)

/-- The steps after an edit. Only steps that are shown can be edited. -/
def Edit.result? : Edit → List Step → Option (List Step)
  | .addStep tempId, steps => some (CreatePage.addStep tempId steps)
  | .removeStep index, steps =>
      if index < steps.length then some (CreatePage.removeStep index steps) else none
  | .updateStep index field, steps =>
      if index < steps.length then some (CreatePage.updateStep index field steps) else none

/-- The steps after a sequence of edits of an empty page. -/
def edited (edits : List Edit) : Option (List Step) :=
  edits.foldlM (fun steps edit => edit.result? steps) []

/-- The way on and the way out of each step. -/
def generateDefaultTransitions (workflowSteps : List Step) : List Transition :=
  (neighbours workflowSteps).flatMap fun (current, next) =>
    [⟨current.tempId, next.map (·.tempId), "APPROVED"⟩, ⟨current.tempId, none, "REJECTED"⟩]

/-- A transition with the orders of the steps it names. -/
def formatTransition (workflowSteps : List Step) (transition : Transition) : TransitionPayload :=
  let fromStep := workflowSteps.find? (·.tempId = transition.fromStepTempId)
  let toStep := transition.toStepTempId.bind fun tempId => workflowSteps.find? (·.tempId = tempId)
  ⟨fromStep.map fun step => (step.stepOrder : ℤ), toStep.map fun step => (step.stepOrder : ℤ),
    transition.outcome⟩

def formatStep (step : Step) : StepPayload where
  name := some step.name
  description := step.description
  stepOrder := some step.stepOrder
  slaHours := step.slaHours
  requiredRoleId := step.requiredRoleId
  requiredPermissionId := step.requiredPermissionId
  isConditional := step.isConditional

/-- `handleSubmit` in wizard mode. -/
def handleSubmit (name description : String) (workflowSteps : List Step)
    (transitions : List Transition) : WorkflowPayload where
  name := some name
  description := some description
  isActive := true
  steps := workflowSteps.map formatStep
  transitions := transitions.map (formatTransition workflowSteps)

/-! ## What edits keep -/

/-- Steps as the page keeps them: numbered as they are shown, due within a day, and
without a required permission. -/
structure Tidy (steps : List Step) : Prop where
  numbered : steps.map (·.stepOrder) = List.range' 1 steps.length
  slaHours : ∀ step ∈ steps, step.slaHours = 24
  requiredPermissionId : ∀ step ∈ steps, step.requiredPermissionId = none

theorem tidy_nil : Tidy [] := ⟨rfl, by simp, by simp⟩

variable {steps : List Step}

theorem Tidy.addStep (hsteps : Tidy steps) (tempId : String) :
    Tidy (CreatePage.addStep tempId steps) where
  numbered := by
    rw [CreatePage.addStep, List.map_append, hsteps.numbered, List.length_append,
      List.length_singleton, List.range'_1_concat, Nat.add_comm 1]
    rfl
  slaHours step hstep := by
    rcases List.mem_append.mp hstep with hold | hnew
    · exact hsteps.slaHours step hold
    · rw [List.mem_singleton.mp hnew]
  requiredPermissionId step hstep := by
    rcases List.mem_append.mp hstep with hold | hnew
    · exact hsteps.requiredPermissionId step hold
    · rw [List.mem_singleton.mp hnew]

/-- Whatever is removed, the rest is numbered anew. -/
theorem Tidy.removeStep (hsteps : Tidy steps) (index : ℕ) :
    Tidy (CreatePage.removeStep index steps) := by
  have hrest : ∀ step ∈ CreatePage.removeStep index steps, ∃ before ∈ steps,
      step.slaHours = before.slaHours ∧
        step.requiredPermissionId = before.requiredPermissionId := by
    intro step hstep
    obtain ⟨i, hi, rfl⟩ := List.mem_mapIdx.mp hstep
    exact ⟨_, List.mem_of_mem_eraseIdx (List.getElem_mem hi), rfl, rfl⟩
  exact {
    numbered := by
      apply List.ext_getElem (by simp)
      intro i hi hi'
      simp [CreatePage.removeStep, Nat.add_comm]
    slaHours := by
      intro step hstep
      obtain ⟨before, hbefore, hsla, -⟩ := hrest step hstep
      rw [hsla, hsteps.slaHours before hbefore]
    requiredPermissionId := by
      intro step hstep
      obtain ⟨before, hbefore, -, hpermission⟩ := hrest step hstep
      rw [hpermission, hsteps.requiredPermissionId before hbefore] }

theorem Field.set_stepOrder (field : Field) (step : Step) :
    (field.set step).stepOrder = step.stepOrder ∧ (field.set step).slaHours = step.slaHours ∧
      (field.set step).requiredPermissionId = step.requiredPermissionId := by
  cases field <;> exact ⟨rfl, rfl, rfl⟩

theorem Tidy.updateStep (hsteps : Tidy steps) (index : ℕ) (field : Field) :
    Tidy (CreatePage.updateStep index field steps) := by
  have hrest : ∀ step ∈ CreatePage.updateStep index field steps, ∃ before ∈ steps,
      step.slaHours = before.slaHours ∧
        step.requiredPermissionId = before.requiredPermissionId := by
    intro step hstep
    obtain ⟨i, hi, rfl⟩ := List.getElem_of_mem hstep
    have hi' : i < steps.length := by simpa [CreatePage.updateStep] using hi
    simp only [CreatePage.updateStep, List.getElem_modify]
    split
    · exact ⟨_, List.getElem_mem hi', (field.set_stepOrder _).2⟩
    · exact ⟨_, List.getElem_mem hi', rfl, rfl⟩
  exact {
    numbered := by
      have hlength : (CreatePage.updateStep index field steps).length = steps.length := by
        simp [CreatePage.updateStep]
      rw [hlength, ← hsteps.numbered]
      apply List.ext_getElem (by simp [hlength])
      intro i hi hi'
      simp only [List.getElem_map, CreatePage.updateStep, List.getElem_modify]
      split
      · exact (field.set_stepOrder _).1
      · rfl
    slaHours := by
      intro step hstep
      obtain ⟨before, hbefore, hsla, -⟩ := hrest step hstep
      rw [hsla, hsteps.slaHours before hbefore]
    requiredPermissionId := by
      intro step hstep
      obtain ⟨before, hbefore, -, hpermission⟩ := hrest step hstep
      rw [hpermission, hsteps.requiredPermissionId before hbefore] }

theorem Tidy.result? (hsteps : Tidy steps) {edit : Edit} {steps' : List Step}
    (hedit : edit.result? steps = some steps') : Tidy steps' := by
  cases edit with
  | addStep tempId =>
      cases hedit
      exact hsteps.addStep tempId
  | removeStep index =>
      obtain ⟨-, hedit⟩ := Option.ite_none_right_eq_some.mp hedit
      cases hedit
      exact hsteps.removeStep index
  | updateStep index field =>
      obtain ⟨-, hedit⟩ := Option.ite_none_right_eq_some.mp hedit
      cases hedit
      exact hsteps.updateStep index field

/-- Every sequence of edits leaves the steps tidy. -/
theorem tidy_edited {edits : List Edit} (hedited : edited edits = some steps) : Tidy steps := by
  have hkeeps : ∀ (edits : List Edit) (before : List Step), Tidy before →
      edits.foldlM (fun steps edit => edit.result? steps) before = some steps → Tidy steps := by
    intro edits
    induction edits with
    | nil =>
        intro before hbefore hedited
        cases hedited
        exact hbefore
    | cons edit rest ih =>
        intro before hbefore hedited
        rw [List.foldlM_cons, Option.bind_eq_bind, Option.bind_eq_some_iff] at hedited
        obtain ⟨middle, hedit, hrest⟩ := hedited
        exact ih middle (hbefore.result? hedit) hrest
  exact hkeeps edits [] tidy_nil hedited

end CreatePage

end WorkflowPlatform
