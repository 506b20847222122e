import WorkflowPlatform.Access.Authority
import WorkflowPlatform.Client.BlueprintOrder

/-! # The roles of a blueprint

A step whose role is not found among the roles a page fetched is posted without a
required role, and the engine lets anyone decide it. The roles of a blueprint are kept
exactly when the page finds each by its name.
-/

namespace WorkflowPlatform

open Python WorkflowEngine WorkflowService

/-! ## What keeping the roles means -/

/-- The role has the name, up to letter case. -/
def Role.Named (casing : Lowering) (role : Role) (name : String) : Prop :=
  casing.lower role.name = casing.lower name

section Keeps

variable (casing : Lowering) (directory : Directory)

/-- A stored step requires a stored role of the name that the step of the blueprint
gives. -/
def RequiresNamed (s : BlueprintStep) (row : WorkflowStep) : Prop :=
  ∃ required ∈ directory.roles, row.requiredRoleId = some required.id ∧
    ∀ name ∈ s.role, required.Named casing name

/-- A user who is no administrator and has no role of the name cannot decide the step. -/
def Guards (db : Database) (workflowId : Uuid) (s : BlueprintStep) (row : WorkflowStep) : Prop :=
  ∀ request ∈ db.workflowRequests, request.workflowId = workflowId →
    request.currentStepId = some row.id → ∀ user, directory.Knows user → isAdmin user = false →
      (∀ role ∈ user.roles, ∀ name ∈ s.role, ¬role.Named casing name) →
        ∀ env outcome context,
          (Call.processStep env request.id user outcome context).accepted db = false

/-- Every stored step requires a role of the name its blueprint gives, and in every later
state the engine insists on it. -/
structure KeepsRoles (data : Blueprint) (stored : Database) (workflowId : Uuid) : Prop where
  requires : List.Forall₂ (RequiresNamed casing directory) data.steps (stored.stepsOf workflowId)
  guards : ∀ calls, ∀ pair ∈ data.steps.zip (stored.stepsOf workflowId),
    Guards casing directory (runCalls stored calls) workflowId pair.1 pair.2

end Keeps

/-- A page finds the role of a step by its name: one of its roles has the name and, on
the create page, none before it has the identifier that the step gives. -/
def BlueprintPage.Finds (casing : Lowering) (roles : List Role) (s : BlueprintStep)
    (name : String) : BlueprintPage → Prop
  | create => ∃ before role after, roles = before ++ role :: after ∧ role.Named casing name ∧
      ∀ other ∈ before, s.roleId ≠ some other.id
  | workflows => ∃ role ∈ roles, role.Named casing name

variable {casing : Lowering} {directory : Directory} {roles : List Role} {page : BlueprintPage}
  {s : BlueprintStep} {name : String}

/-! ## Looking a role up -/

theorem findRole_create_iff (hroles : roles ⊆ directory.roles) (hname : s.role = some name) :
    (∃ required ∈ directory.roles,
        (CreatePage.findRole casing roles s).map (·.id) = some required.id ∧
          required.Named casing name) ↔
      BlueprintPage.create.Finds casing roles s name := by
  have haccepts : ∀ r : Role, (decide (s.role.any (fun text =>
      decide (casing.lower r.name = casing.lower text)) = true ∨ s.roleId = some r.id) = true) ↔
        r.Named casing name ∨ s.roleId = some r.id := by
    intro r
    simp [hname, Role.Named]
  constructor
  · rintro ⟨required, hrequired, hfound, hnamed⟩
    obtain ⟨role, hrole, hid⟩ := Option.map_eq_some_iff.mp hfound
    obtain ⟨-, before, after, rfl, hbefore⟩ := List.find?_eq_some_iff_append.mp hrole
    have hmem := hroles (List.mem_append_right before List.mem_cons_self)
    obtain rfl := Keyed.ext directory.role_ids hmem hrequired hid
    refine ⟨before, role, after, rfl, hnamed, fun other hother heq => ?_⟩
    have hrejected := hbefore other hother
    rw [Bool.not_eq_eq_eq_not, Bool.not_true, ← Bool.not_eq_true, haccepts] at hrejected
    exact hrejected (.inr heq)
  · rintro ⟨before, role, after, rfl, hnamed, hbefore⟩
    have hlater : CreatePage.findRole casing (role :: after) s = some role :=
      List.find?_cons_of_pos ((haccepts role).mpr (.inl hnamed))
    have hfind : CreatePage.findRole casing (before ++ role :: after) s =
        (CreatePage.findRole casing before s).or (some role) := by
      rw [← hlater]
      exact List.find?_append
    rw [hfind]
    cases hfound : CreatePage.findRole casing before s with
    | none =>
        exact ⟨role, hroles (List.mem_append_right before List.mem_cons_self), rfl, hnamed⟩
    | some found =>
        -- a role that comes earlier can only be found by its name
        have hmem := List.mem_of_find?_eq_some hfound
        have haccepted := List.find?_some (hfound :)
        refine ⟨found, hroles (List.mem_append_left _ hmem), rfl, ?_⟩
        exact ((haccepts found).mp haccepted).resolve_right (hbefore found hmem)

theorem findRole_workflows_iff (hroles : roles ⊆ directory.roles) (hname : s.role = some name)
    {found : Option Role} (hfound : WorkflowsPage.findRole casing roles s = some found) :
    (∃ required ∈ directory.roles, found.map (·.id) = some required.id ∧
        required.Named casing name) ↔
      BlueprintPage.workflows.Finds casing roles s name := by
  have hlookup : found = roles.find? fun r => casing.lower r.name = casing.lower name :=
    Option.some.inj (hfound.symm.trans (WorkflowsPage.findRole_of_named casing roles hname))
  subst hlookup
  constructor
  · rintro ⟨required, hrequired, hid, hnamed⟩
    obtain ⟨role, hrole, hid⟩ := Option.map_eq_some_iff.mp hid
    have hmem := List.mem_of_find?_eq_some hrole
    obtain rfl := Keyed.ext directory.role_ids (hroles hmem) hrequired hid
    exact ⟨role, hmem, hnamed⟩
  · rintro ⟨role, hrole, hnamed⟩
    have haccepts : decide (casing.lower role.name = casing.lower name) = true :=
      decide_eq_true hnamed
    have hsome : (roles.find? fun r => casing.lower r.name = casing.lower name).isSome :=
      List.find?_isSome.mpr ⟨role, hrole, haccepts⟩
    obtain ⟨first, hfirst⟩ := Option.isSome_iff_exists.mp hsome
    have hnamed' : casing.lower first.name = casing.lower name := by
      simpa using List.find?_some hfirst
    rw [hfirst]
    exact ⟨first, hroles (List.mem_of_find?_eq_some hfirst), rfl, hnamed'⟩

/-- A step keeps its role exactly when the page finds it. -/
theorem findRole_iff (hroles : roles ⊆ directory.roles) (hname : s.role = some name)
    {found : Option Role} (hfound : page.findRole casing roles s = some found) :
    (∃ required ∈ directory.roles, found.map (·.id) = some required.id ∧
        required.Named casing name) ↔ page.Finds casing roles s name := by
  cases page with
  | create =>
      cases hfound
      exact findRole_create_iff hroles hname
  | workflows => exact findRole_workflows_iff hroles hname hfound

/-! ## The stored definition -/

variable {data : Blueprint} {payload : WorkflowPayload} {create : WorkflowCreate}

/-- Every step of the blueprint names a role. -/
def Blueprint.NamesRoles (data : Blueprint) : Prop := ∀ s ∈ data.steps, s.role.isSome

/-- Every role of the blueprint is found by the page. -/
def BlueprintPage.FindsAll (casing : Lowering) (roles : List Role) (data : Blueprint)
    (page : BlueprintPage) : Prop :=
  ∀ s ∈ data.steps, ∀ name ∈ s.role, page.Finds casing roles s name

theorem requiresNamed_iff (hsubmit : page.submit? casing roles data = some payload)
    (hvalid : payload.validate? = some create) (hroles : roles ⊆ directory.roles)
    (hnames : data.NamesRoles) (workflowId id : Uuid) :
    List.Forall₂ (RequiresNamed casing directory) data.steps
        (storedSteps workflowId id create.steps) ↔ page.FindsAll casing roles data := by
  have hformats := (submitted_steps hsubmit).1
  have hstored := WorkflowPayload.storedAs_storedSteps hvalid workflowId id
  generalize payload.steps = formattedSteps at hformats hstored
  generalize storedSteps workflowId id create.steps = rows at hstored ⊢
  unfold Blueprint.NamesRoles at hnames
  unfold BlueprintPage.FindsAll
  generalize data.steps = steps at hformats hnames ⊢
  induction hformats generalizing rows with
  | nil =>
      cases hstored
      simp
  | @cons s formatted steps _ hhead htail ih =>
      obtain ⟨found, hfound, rfl⟩ := hhead
      cases hstored with
      | @cons _ row _ rows hrow hrest =>
          obtain ⟨name, hname⟩ := Option.isSome_iff_exists.mp (hnames s List.mem_cons_self)
          have hstep : RequiresNamed casing directory s row ↔ page.Finds casing roles s name := by
            rw [← findRole_iff hroles hname hfound, RequiresNamed, hrow.requiredRoleId]
            simp [hname, formatBlueprintStep]
          have hothers : List.Forall₂ (RequiresNamed casing directory) steps rows ↔
              ∀ s ∈ steps, ∀ name ∈ s.role, page.Finds casing roles s name :=
            ih rows hrest fun other hother => hnames other (List.mem_cons_of_mem _ hother)
          rw [List.forall₂_cons, hstep, hothers, List.forall_mem_cons]
          simp [hname]

/-! ## The access check -/

variable {db : Database} {workflowId : Uuid}

/-- The access check insists on the role that a stored step requires. -/
theorem guards_of_requiresNamed (hdb : WellFormed db) {row : WorkflowStep}
    (hfound : db.step? row.id = some row) (hrequires : RequiresNamed casing directory s row)
    (hname : s.role.isSome) : Guards casing directory db workflowId s row := by
  intro request hrequest hworkflow hcurrent user hknows hadmin hlacks env outcome context
  rw [accepted_processStep, Option.isSome_eq_false_iff, Option.isNone_iff_eq_none]
  cases hdecided : decided env db request.id user outcome context with
  | none => rfl
  | some db' =>
      obtain ⟨exec, status, haccepted, -⟩ := accepted_of_decided hdb hrequest hdecided
      obtain ⟨-, -, before, hactive⟩ :=
        hdb.active_of_openExecution haccepted.request_read haccepted.execution_open
      obtain hstep : exec.stepId = row.id :=
        Option.some.inj (hactive.currentStepId_eq.symm.trans hcurrent)
      have hpermitted := haccepted.permitted
      obtain ⟨required, hstored, hid, hnamed⟩ := hrequires
      obtain ⟨name, hname⟩ := Option.isSome_iff_exists.mp hname
      simp only [rbacError, hadmin, hstep, hfound, missing, hid, Option.any_some] at hpermitted
      -- passing the check, the user holds the required role itself
      have hheld : required.id ∈ roleIds user := by
        by_contra hlost
        simp [hlost] at hpermitted
      obtain ⟨role, hrole, heq⟩ := List.mem_map.mp hheld
      obtain rfl := Keyed.ext directory.role_ids (hknows role hrole) hstored heq
      exact absurd (hnamed name hname) (hlacks role hrole name hname)

/-- The roles of a stored blueprint are kept exactly when the page finds each by its name. -/
theorem blueprint_roles_kept_iff (hreachable : Reachable db)
    (hroles : PageRoles directory.roles roles) (hnames : data.NamesRoles)
    (hsubmit : page.submit? casing roles data = some payload)
    (hvalid : payload.validate? = some create) {env : Env} {creatorId : Uuid}
    (hstored : (Tx.perform (createWorkflow env create creatorId) db).result = .ok workflowId) :
    KeepsRoles casing directory data ((Call.createWorkflow env create creatorId).perform db)
      workflowId ↔ page.FindsAll casing roles data := by
  have hdb := hreachable.wellFormed
  rcases perform_createWorkflow env create creatorId db with
    ⟨error, hrefused, -⟩ | ⟨hresult, hstate⟩
  · rw [hrefused] at hstored
    cases hstored
  obtain rfl : db.nextId = workflowId := Except.ok.inj (hresult.symm.trans hstored)
  have hcreated : CreatedAs (withDefinition db create creatorId) db.nextId create :=
    definedAs_withDefinition hdb.toWellDefined create creatorId
  rw [Call.perform, hstate]
  have hiff := requiresNamed_iff hsubmit hvalid hroles.subset hnames db.nextId (db.nextId + 1)
  rw [← hiff, ← hcreated.steps_eq]
  refine ⟨fun hkeeps => hkeeps.requires, fun hrequires => ⟨hrequires, ?_⟩⟩
  rintro calls ⟨s, row⟩ hpair request hrequest hworkflow
  have hlater := wellFormed_runCalls (wellFormed_withDefinition hdb create creatorId) calls
  -- a request on the workflow still finds the steps that were stored
  have hkept : CreatedAs (runCalls (withDefinition db create creatorId) calls) db.nextId create :=
    definedAs_of_created hdb create creatorId calls hrequest hworkflow
  have hrow : row ∈ storedSteps db.nextId (db.nextId + 1) create.steps :=
    hcreated.steps_eq ▸ (List.of_mem_zip hpair).2
  exact guards_of_requiresNamed hlater (hkept.step?_eq hlater row hrow)
    (List.forall₂_zip hrequires hpair) (hnames s (List.of_mem_zip hpair).1) request
    hrequest hworkflow

/-! ### The blueprint that the pages propose -/

namespace Sample

/-- The roles that the seed script stores. -/
def seededRoles : Directory where
  roles := [⟨0, "admin", []⟩, ⟨1, "strategic_node", []⟩, ⟨2, "operational_node", []⟩]
  permissions := []
  role_ids := by decide
  role_names := by decide
  permission_ids := List.nodup_nil
  permission_names := List.nodup_nil
  granted := by simp

/-- The roles that the bootstrap script stores. -/
def bootstrappedRoles : Directory where
  roles := [⟨0, "Admin", []⟩, ⟨1, "Manager", []⟩, ⟨2, "User", []⟩]
  permissions := []
  role_ids := by decide
  role_names := by decide
  permission_ids := List.nodup_nil
  permission_names := List.nodup_nil
  granted := by simp

def defaultBlueprint : Blueprint where
  name := some "NEW_PROTOCOL_1"
  description := some "Enterprise-grade orchestration logic."
  steps := [
    ⟨some "Initiation", none, some 1, some 24, some "user", none⟩,
    ⟨some "Verification", none, some 2, some 24, some "manager", none⟩,
    ⟨some "Final Authorization", none, some 3, some 24, some "admin", none⟩]

/-- What the workflows page posts for it. -/
def defaultPosted (stored : Directory) : WorkflowPayload :=
  (WorkflowsPage.handleCreateWorkflow .plain (Endpoint.getRoles .stored stored.roles 0 100)
    defaultBlueprint).getD (blueprintPosted 1 2)

def defaultCreate (stored : Directory) : WorkflowCreate :=
  (defaultPosted stored).validate?.getD approvals

end Sample

theorem blueprint_roles_kept_iff_bootstrapped :
    KeepsRoles .plain Sample.bootstrappedRoles Sample.defaultBlueprint
        ((Call.createWorkflow (.calm Sample.noon) (Sample.defaultCreate Sample.bootstrappedRoles)
          0).perform Database.empty) 0 ↔
      BlueprintPage.workflows.FindsAll .plain
        (Endpoint.getRoles .stored Sample.bootstrappedRoles.roles 0 100) Sample.defaultBlueprint :=
  blueprint_roles_kept_iff ⟨[], rfl⟩ (.fetched .stored)
    (by simp [Blueprint.NamesRoles, Sample.defaultBlueprint])
    (show BlueprintPage.workflows.submit? .plain
        (Endpoint.getRoles .stored Sample.bootstrappedRoles.roles 0 100) Sample.defaultBlueprint =
      some (Sample.defaultPosted Sample.bootstrappedRoles) from rfl)
    (show (Sample.defaultPosted Sample.bootstrappedRoles).validate? =
      some (Sample.defaultCreate Sample.bootstrappedRoles) from rfl)
    rfl

/-- With the seeded roles, the proposed blueprint is stored without the roles user and
manager. -/
theorem blueprint_roles_lost :
    ¬∀ (casing : Lowering) (directory : Directory) (roles : List Role) (page : BlueprintPage)
      (data : Blueprint) payload create, PageRoles directory.roles roles → data.NamesRoles →
        page.submit? casing roles data = some payload → payload.validate? = some create →
          ∀ db, Reachable db → ∀ env creatorId workflowId,
            (Tx.perform (createWorkflow env create creatorId) db).result = .ok workflowId →
              KeepsRoles casing directory data
                ((Call.createWorkflow env create creatorId).perform db) workflowId := by
  intro hkeeps
  have hkept := hkeeps .plain Sample.seededRoles _ .workflows Sample.defaultBlueprint
    (Sample.defaultPosted Sample.seededRoles) (Sample.defaultCreate Sample.seededRoles)
    (.fetched .stored) (by simp [Blueprint.NamesRoles, Sample.defaultBlueprint]) rfl rfl
    Database.empty ⟨[], rfl⟩ (.calm Sample.noon) 0 0 rfl
  obtain ⟨⟨required, -, hrequired, -⟩, -⟩ := List.forall₂_cons.mp hkept.requires
  cases hrequired

end WorkflowPlatform
