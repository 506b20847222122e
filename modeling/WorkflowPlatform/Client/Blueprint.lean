import WorkflowPlatform.Client.Payload
import WorkflowPlatform.Foundation.Line
import WorkflowPlatform.Foundation.RowOrder
import WorkflowPlatform.Python.LetterCase

/-! # JSON blueprints

Two pages take a blueprint: the create page in its JSON mode, and the modal of the
workflows page. Both look the roles of the steps up among the roles they fetched,
and link the steps in the order in which the blueprint lists them.
-/

namespace WorkflowPlatform

open Python

/-! ## What the pages read -/

/-- A step of a blueprint. Keys that are missing or null are `none`. -/
structure BlueprintStep where
  name : Option String
  description : Option String
  order : Option ℤ
  sla : Option ℤ
  role : Option String
  roleId : Option Uuid

structure Blueprint where
  name : Option String
  description : Option String
  steps : List BlueprintStep

namespace Endpoint

/-- `GET /roles/`, which orders by nothing. -/
def getRoles (order : RowOrder Role) (roles : List Role) (skip limit : ℕ) : List Role :=
  ((order.rows roles).drop skip).take limit

end Endpoint

/-- The roles a page knows: none until they are fetched, and then the first hundred. -/
inductive PageRoles (stored : List Role) : List Role → Prop
  | unfetched : PageRoles stored []
  | fetched (order : RowOrder Role) : PageRoles stored (Endpoint.getRoles order stored 0 100)

theorem PageRoles.subset {stored roles : List Role} (hroles : PageRoles stored roles) :
    roles ⊆ stored := by
  cases hroles with
  | unfetched => exact List.nil_subset _
  | fetched order => exact fun role hrole => order.mem_rows.mp (List.mem_of_mem_take hrole)

/-! ## What the pages submit -/

/-- `s.sla || 24`. -/
def BlueprintStep.slaHours (s : BlueprintStep) : ℤ :=
  match s.sla with
  | none | some 0 => 24
  | some hours => hours

/-- A step with the role that was found for it. -/
def formatBlueprintStep (s : BlueprintStep) (role : Option Role) : StepPayload where
  name := s.name
  description := s.description.getD ""
  stepOrder := s.order
  slaHours := s.slaHours
  requiredRoleId := role.map (·.id)
  requiredPermissionId := none
  isConditional := false

/-- An approval from each step to its neighbour in the list. -/
def linearTransitions (formattedSteps : List StepPayload) : List TransitionPayload :=
  (neighbours formattedSteps).map fun (current, next) =>
    ⟨current.stepOrder, next.bind (·.stepOrder), "APPROVED"⟩

def blueprintPayload (data : Blueprint) (formattedSteps : List StepPayload) : WorkflowPayload where
  name := data.name
  description := data.description
  isActive := true
  steps := formattedSteps
  transitions := linearTransitions formattedSteps

section Pages

variable (casing : Lowering) (roles : List Role)

namespace CreatePage

/-- The first role that has the name or the identifier. -/
def findRole (s : BlueprintStep) : Option Role :=
  roles.find? fun r => s.role.any (casing.lower r.name = casing.lower ·) ∨ s.roleId = some r.id

/-- `handleSubmit` in JSON mode. -/
def handleSubmitJson (data : Blueprint) : WorkflowPayload :=
  blueprintPayload data (data.steps.map fun s => formatBlueprintStep s (findRole casing roles s))

end CreatePage

namespace WorkflowsPage

/-- The first role that has the name. Looking at a role throws when the step names
none. -/
def findRole (s : BlueprintStep) : Option (Option Role) :=
  match roles, s.role with
  | [], _ => some none
  | _ :: _, none => none
  | _ :: _, some role => some (roles.find? fun r => casing.lower r.name = casing.lower role)

theorem findRole_of_named {s : BlueprintStep} {name : String} (hname : s.role = some name) :
    findRole casing roles s =
      some (roles.find? fun r => casing.lower r.name = casing.lower name) := by
  cases roles <;> simp [findRole, hname]

def handleCreateWorkflow (data : Blueprint) : Option WorkflowPayload := do
  let formattedSteps ← data.steps.mapM fun s =>
    (findRole casing roles s).map (formatBlueprintStep s)
  return blueprintPayload data formattedSteps

end WorkflowsPage

/-- The pages that take a blueprint. -/
inductive BlueprintPage
  | create
  | workflows
  deriving DecidableEq

/-- The role a page finds for a step; `none` where it throws. -/
def BlueprintPage.findRole (s : BlueprintStep) : BlueprintPage → Option (Option Role)
  | create => some (CreatePage.findRole casing roles s)
  | workflows => WorkflowsPage.findRole casing roles s

/-- What a page posts. -/
def BlueprintPage.submit? (data : Blueprint) : BlueprintPage → Option WorkflowPayload
  | create => some (CreatePage.handleSubmitJson casing roles data)
  | workflows => WorkflowsPage.handleCreateWorkflow casing roles data

end Pages

/-- A posted step is a step of the blueprint, under the role that was found for it. -/
def Formats (casing : Lowering) (roles : List Role) (page : BlueprintPage) (s : BlueprintStep)
    (formatted : StepPayload) : Prop :=
  ∃ role, page.findRole casing roles s = some role ∧ formatted = formatBlueprintStep s role

variable {casing : Lowering} {roles : List Role} {page : BlueprintPage} {data : Blueprint}
  {payload : WorkflowPayload}

/-- Both pages post the steps of the blueprint as it lists them. -/
theorem submitted_steps (hsubmit : page.submit? casing roles data = some payload) :
    List.Forall₂ (Formats casing roles page) data.steps payload.steps ∧
      payload.transitions = linearTransitions payload.steps := by
  cases page with
  | create =>
      cases hsubmit
      refine ⟨?_, rfl⟩
      rw [CreatePage.handleSubmitJson, blueprintPayload, List.forall₂_map_right_iff]
      exact List.forall₂_same.mpr fun s _ => ⟨_, rfl, rfl⟩
  | workflows =>
      obtain ⟨formattedSteps, hsteps, hpayload⟩ := Option.bind_eq_some_iff.mp hsubmit
      cases hpayload
      refine ⟨?_, rfl⟩
      refine (mapM_eq_some_iff.mp hsteps).imp fun s formatted hformatted => ?_
      obtain ⟨role, hrole, rfl⟩ := Option.map_eq_some_iff.mp hformatted
      exact ⟨role, hrole, rfl⟩

theorem submitted_stepOrder (hsubmit : page.submit? casing roles data = some payload) :
    payload.steps.map (·.stepOrder) = data.steps.map (·.order) := by
  have hsteps := (submitted_steps hsubmit).1
  generalize payload.steps = formattedSteps at hsteps ⊢
  generalize data.steps = steps at hsteps ⊢
  induction hsteps with
  | nil => rfl
  | cons hhead htail ih =>
      obtain ⟨role, -, rfl⟩ := hhead
      rw [List.map_cons, List.map_cons, ih]
      rfl

end WorkflowPlatform
