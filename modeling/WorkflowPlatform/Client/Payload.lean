import WorkflowPlatform.Engine.DefinitionEffect
import Mathlib.Data.List.Forall2

/-! # Payloads of the pages

What the pages post to `/workflows`, and the validation that turns it into a
definition or answers 422. A field that is undefined in the page is missing from
what it posts.
-/

namespace WorkflowPlatform

open Python

structure StepPayload where
  name : Option String
  description : String
  stepOrder : Option ℤ
  slaHours : ℤ
  requiredRoleId : Option Uuid
  requiredPermissionId : Option Uuid
  isConditional : Bool

structure TransitionPayload where
  fromStepOrder : Option ℤ
  toStepOrder : Option ℤ
  outcome : String

structure WorkflowPayload where
  name : Option String
  description : Option String
  isActive : Bool
  steps : List StepPayload
  transitions : List TransitionPayload

/-! ## Validation -/

def StepPayload.validate? (payload : StepPayload) : Option WorkflowStepCreate := do
  let name ← payload.name
  let stepOrder ← payload.stepOrder
  if hvalid : (1 ≤ name.length ∧ name.length ≤ 100) ∧ 1 ≤ stepOrder ∧ 1 ≤ payload.slaHours then
    some {
      name := name
      description := some payload.description
      stepOrder := stepOrder
      slaHours := payload.slaHours.toNat
      requiredRoleId := payload.requiredRoleId
      requiredPermissionId := payload.requiredPermissionId
      isConditional := payload.isConditional
      conditionConfig := none
      name_length := hvalid.1
      one_le_stepOrder := hvalid.2.1
      one_le_slaHours := Int.pos_iff_toNat_pos.mp (Int.lt_iff_add_one_le.mpr hvalid.2.2) }
  else none

def TransitionPayload.validate? (payload : TransitionPayload) : Option StepTransitionCreate := do
  let fromStepOrder ← payload.fromStepOrder
  return ⟨fromStepOrder, payload.toStepOrder, payload.outcome, none⟩

/-- `WorkflowCreate` from a posted body. -/
def WorkflowPayload.validate? (payload : WorkflowPayload) : Option WorkflowCreate := do
  let name ← payload.name
  let steps ← payload.steps.mapM StepPayload.validate?
  let transitions ← payload.transitions.mapM TransitionPayload.validate?
  if hvalid : 1 ≤ name.length ∧ name.length ≤ 255 then
    some {
      name := name
      description := payload.description
      isActive := payload.isActive
      steps := steps
      transitions := transitions
      name_length := hvalid }
  else none

/-- A validated step is the posted one. -/
structure StepPayload.Describes (payload : StepPayload) (stepData : WorkflowStepCreate) : Prop where
  name : payload.name = some stepData.name
  description : stepData.description = some payload.description
  stepOrder : payload.stepOrder = some stepData.stepOrder
  slaHours : payload.slaHours = stepData.slaHours
  requiredRoleId : stepData.requiredRoleId = payload.requiredRoleId
  requiredPermissionId : stepData.requiredPermissionId = payload.requiredPermissionId

theorem StepPayload.describes_of_validate? {payload : StepPayload} {stepData : WorkflowStepCreate}
    (hvalid : payload.validate? = some stepData) : payload.Describes stepData := by
  simp only [validate?, Option.bind_eq_bind, Option.bind_eq_some_iff] at hvalid
  obtain ⟨name, hname, stepOrder, horder, hvalid⟩ := hvalid
  split at hvalid
  · next hbounds =>
    cases hvalid
    exact ⟨hname, rfl, horder, by simp; omega, rfl, rfl⟩
  · cases hvalid

theorem TransitionPayload.validate?_eq_some_iff {payload : TransitionPayload}
    {transData : StepTransitionCreate} :
    payload.validate? = some transData ↔
      payload = ⟨some transData.fromStepOrder, transData.toStepOrder, transData.outcome⟩ ∧
        transData.conditionConfig = none := by
  obtain ⟨fromStepOrder, toStepOrder, outcome⟩ := payload
  obtain ⟨fromStepOrder', toStepOrder', outcome', conditionConfig⟩ := transData
  cases fromStepOrder with
  | none => simp [validate?]
  | some order => simp [validate?, and_assoc, eq_comm]

/-- A list is validated entry by entry. -/
theorem mapM_eq_some_iff {α β : Type} {validate : α → Option β} {entries : List α}
    {validated : List β} :
    entries.mapM validate = some validated ↔
      List.Forall₂ (fun entry result => validate entry = some result) entries validated := by
  induction entries generalizing validated with
  | nil => simp [eq_comm]
  | cons entry rest ih =>
      simp only [List.mapM_cons, Option.bind_eq_bind, Option.bind_eq_some_iff, Option.pure_def,
        Option.some.injEq, List.forall₂_cons_left_iff, ih]
      constructor
      · rintro ⟨result, hresult, results, hresults, rfl⟩
        exact ⟨result, results, hresult, hresults, rfl⟩
      · rintro ⟨result, results, hresult, hresults, rfl⟩
        exact ⟨result, hresult, results, hresults, rfl⟩

/-- What a validated list holds is what its entries are validated to. -/
theorem mem_of_forall₂ {α β : Type} {validate : α → Option β} {entries : List α}
    {validated : List β}
    (hall : List.Forall₂ (fun entry result => validate entry = some result) entries validated)
    {result : β} : result ∈ validated ↔ ∃ entry ∈ entries, validate entry = some result := by
  induction hall with
  | nil => simp
  | cons hhead htail ih => simp [ih, hhead, eq_comm]

/-- What validation lets pass is what was posted. -/
theorem WorkflowPayload.of_validate? {payload : WorkflowPayload} {create : WorkflowCreate}
    (hvalid : payload.validate? = some create) :
    List.Forall₂ StepPayload.Describes payload.steps create.steps ∧
      List.Forall₂ (fun posted transData => posted.validate? = some transData) payload.transitions
        create.transitions := by
  simp only [validate?, Option.bind_eq_bind, Option.bind_eq_some_iff] at hvalid
  obtain ⟨name, hname, steps, hsteps, transitions, htransitions, hvalid⟩ := hvalid
  split at hvalid
  · cases hvalid
    exact ⟨(mapM_eq_some_iff.mp hsteps).imp fun _ _ => StepPayload.describes_of_validate?,
      mapM_eq_some_iff.mp htransitions⟩
  · cases hvalid

/-- The transitions of a definition are the posted ones, without guards. -/
theorem WorkflowPayload.mem_transitions {payload : WorkflowPayload} {create : WorkflowCreate}
    (hvalid : payload.validate? = some create) {transData : StepTransitionCreate} :
    transData ∈ create.transitions ↔
      ⟨some transData.fromStepOrder, transData.toStepOrder, transData.outcome⟩ ∈
          payload.transitions ∧ transData.conditionConfig = none := by
  rw [mem_of_forall₂ (of_validate? hvalid).2]
  simp only [TransitionPayload.validate?_eq_some_iff]
  constructor
  · rintro ⟨posted, hposted, rfl, hconfig⟩
    exact ⟨hposted, hconfig⟩
  · rintro ⟨hposted, hconfig⟩
    exact ⟨_, hposted, rfl, hconfig⟩

theorem WorkflowPayload.steps_stepOrder {payload : WorkflowPayload} {create : WorkflowCreate}
    (hvalid : payload.validate? = some create) :
    payload.steps.map (·.stepOrder) = (create.steps.map (·.stepOrder)).map some := by
  have hsteps := (of_validate? hvalid).1
  generalize payload.steps = posted at hsteps ⊢
  generalize create.steps = steps at hsteps ⊢
  induction hsteps with
  | nil => rfl
  | cons hhead htail ih => simp [hhead.stepOrder, ih]

/-! ## Storing -/

/-- A stored row is a posted step. -/
structure StepPayload.StoredAs (payload : StepPayload) (row : WorkflowStep) : Prop where
  name : payload.name = some row.name
  description : row.description = some payload.description
  stepOrder : payload.stepOrder = some row.stepOrder
  slaHours : payload.slaHours = row.slaHours
  requiredRoleId : row.requiredRoleId = payload.requiredRoleId
  requiredPermissionId : row.requiredPermissionId = payload.requiredPermissionId

/-- The rows of a validated definition are the posted steps, in their order. -/
theorem WorkflowPayload.storedAs_storedSteps {payload : WorkflowPayload} {create : WorkflowCreate}
    (hvalid : payload.validate? = some create) (workflowId id : Uuid) :
    List.Forall₂ StepPayload.StoredAs payload.steps
      (WorkflowService.storedSteps workflowId id create.steps) := by
  have hsteps := (of_validate? hvalid).1
  clear hvalid
  generalize payload.steps = posted at hsteps ⊢
  generalize create.steps = steps at hsteps ⊢
  induction hsteps generalizing id with
  | nil => exact .nil
  | cons hhead htail ih =>
      exact .cons ⟨hhead.name, hhead.description, hhead.stepOrder, hhead.slaHours,
        hhead.requiredRoleId, hhead.requiredPermissionId⟩ (ih (id + 1))

end WorkflowPlatform
