import WorkflowPlatform.Access.RbacService
import WorkflowPlatform.Engine.ProcessLaws

/-! # Two notions of authority

The engine compares the identifiers of roles and permissions and knows one word for
administrators; the RBAC service compares names and lets superadmins pass. They part
over superadmins who lack what a step requires, and over users who hold, instead of
the required role, one that differs from it in letter case.
-/

namespace WorkflowPlatform

open Python Tx WorkflowEngine RbacService

/-- The stored roles and permissions, with what their keys and unique columns give. -/
structure Directory where
  roles : List Role
  permissions : List Permission
  role_ids : (roles.map (·.id)).Nodup
  role_names : (roles.map (·.name)).Nodup
  permission_ids : (permissions.map (·.id)).Nodup
  permission_names : (permissions.map (·.name)).Nodup
  granted : ∀ role ∈ roles, ∀ permission ∈ role.permissions, permission ∈ permissions

/-- A user whose roles are stored ones. -/
def Directory.Knows (directory : Directory) (user : User) : Prop :=
  ∀ role ∈ user.roles, role ∈ directory.roles

/-- What a step requires: a stored role, a stored permission, or neither. -/
structure Requirement (directory : Directory) where
  role : Option Role
  permission : Option Permission
  role_stored : ∀ required ∈ role, required ∈ directory.roles
  permission_stored : ∀ required ∈ permission, required ∈ directory.permissions

/-- The step requires just this. -/
def WorkflowStep.Requires {directory : Directory} (stepDef : WorkflowStep)
    (requirement : Requirement directory) : Prop :=
  stepDef.requiredRoleId = requirement.role.map (·.id) ∧
    stepDef.requiredPermissionId = requirement.permission.map (·.id)

/-- The access check of `process_step` lets the user pass. -/
def EngineAdmits (db : Database) (user : User) (exec : RequestStep) : Prop :=
  (Tx.perform (enforceRbac user exec) db).result = .ok ()

/-- The checks of the RBAC service let the user pass. -/
def RbacAdmits (casing : Lowering) {directory : Directory} (requirement : Requirement directory)
    (user : User) : Prop :=
  checkRole casing user "admin" = .ok () ∨
    ((∀ required ∈ requirement.role, hasRole casing user required.name = true) ∧
      ∀ required ∈ requirement.permission, checkPermissions user [required.name] = .ok ())

/-! ## What a user holds -/

section Holds

variable {directory : Directory} (requirement : Requirement directory) (user : User)

def HoldsRole : Prop := ∀ required ∈ requirement.role, required ∈ user.roles

/-- The user holds the required role or one that differs from it in letter case only. -/
def HoldsVariant (casing : Lowering) : Prop :=
  ∀ required ∈ requirement.role, ∃ role ∈ user.roles,
    casing.lower role.name = casing.lower required.name

def HoldsPermission : Prop :=
  ∀ required ∈ requirement.permission, ∃ role ∈ user.roles, required ∈ role.permissions

def IsSuperadmin (casing : Lowering) : Prop :=
  ∃ role ∈ user.roles, casing.lower role.name = "superadmin"

/-- The RBAC service admits a user whom the engine turns away: one without an admin
role who is a superadmin and lacks what is required, or holds the required role in
other letters only. -/
inductive Overreaches (casing : Lowering) : Prop
  | superadmin (hadmin : isAdmin user = false) (hsuper : IsSuperadmin user casing)
      (hlacks : ¬(HoldsRole requirement user ∧ HoldsPermission requirement user))
  | variant (hadmin : isAdmin user = false) (hlacks : ¬HoldsRole requirement user)
      (hvariant : HoldsVariant requirement user casing)
      (hpermission : HoldsPermission requirement user)

end Holds

variable {directory : Directory} {requirement : Requirement directory} {user : User}

theorem HoldsRole.variant (hholds : HoldsRole requirement user) (casing : Lowering) :
    HoldsVariant requirement user casing :=
  fun required hrequired => ⟨required, hholds required hrequired, rfl⟩

theorem isAdmin_iff (casing : Lowering) (user : User) :
    isAdmin user = true ↔ ∃ role ∈ user.roles, casing.lower role.name = "admin" := by
  simp only [isAdmin, List.any_eq_true, decide_eq_true_eq]
  refine exists_congr fun role => and_congr_right fun _ => ?_
  exact (casing.ascii role.name "admin" (by decide)).symm

/-! ## The two checks -/

/-- Identifiers are as good as rows. -/
theorem mem_roleIds_iff (hknows : directory.Knows user) {required : Role}
    (hrequired : required ∈ directory.roles) :
    required.id ∈ roleIds user ↔ required ∈ user.roles := by
  constructor
  · intro hid
    obtain ⟨role, hrole, heq⟩ := List.mem_map.mp hid
    exact Keyed.ext directory.role_ids (hknows role hrole) hrequired heq ▸ hrole
  · exact fun hrole => List.mem_map_of_mem hrole

theorem mem_permissionIds_iff (hknows : directory.Knows user) {required : Permission}
    (hrequired : required ∈ directory.permissions) :
    required.id ∈ permissionIds user ↔ ∃ role ∈ user.roles, required ∈ role.permissions := by
  simp only [permissionIds, List.mem_flatMap, List.mem_map]
  refine exists_congr fun role => and_congr_right fun hrole => ?_
  constructor
  · rintro ⟨permission, hpermission, heq⟩
    have hstored := directory.granted role (hknows role hrole) permission hpermission
    exact Keyed.ext directory.permission_ids hstored hrequired heq ▸ hpermission
  · exact fun hpermission => ⟨required, hpermission, rfl⟩

/-- So are the names of permissions. -/
theorem hasPermission_name_iff (hknows : directory.Knows user) {required : Permission}
    (hrequired : required ∈ directory.permissions) :
    hasPermission user required.name = true ↔ ∃ role ∈ user.roles, required ∈ role.permissions := by
  rw [hasPermission_iff]
  refine exists_congr fun role => and_congr_right fun hrole => ?_
  constructor
  · rintro ⟨permission, hpermission, heq⟩
    have hstored := directory.granted role (hknows role hrole) permission hpermission
    exact Keyed.ext directory.permission_names hstored hrequired heq ▸ hpermission
  · exact fun hpermission => ⟨required, hpermission, rfl⟩

theorem missing_eq_none_iff_holds (hknows : directory.Knows user) {stepDef : WorkflowStep}
    (hrequires : stepDef.Requires requirement) :
    missing user stepDef = none ↔
      HoldsRole requirement user ∧ HoldsPermission requirement user := by
  rw [missing_eq_none_iff, hrequires.1, hrequires.2]
  apply and_congr
  · simp only [HoldsRole, Option.mem_map, forall_exists_index, and_imp, forall_apply_eq_imp_iff₂]
    exact forall₂_congr fun required hrequired =>
      mem_roleIds_iff hknows (requirement.role_stored required hrequired)
  · simp only [HoldsPermission, Option.mem_map, forall_exists_index, and_imp,
      forall_apply_eq_imp_iff₂]
    exact forall₂_congr fun required hrequired =>
      mem_permissionIds_iff hknows (requirement.permission_stored required hrequired)

theorem engineAdmits_iff (hknows : directory.Knows user) {db : Database} {exec : RequestStep}
    {stepDef : WorkflowStep} (hstep : db.step? exec.stepId = some stepDef)
    (hrequires : stepDef.Requires requirement) :
    EngineAdmits db user exec ↔
      isAdmin user = true ∨ (HoldsRole requirement user ∧ HoldsPermission requirement user) := by
  have hrun : EngineAdmits db user exec ↔ rbacError db user exec = none := by
    rw [EngineAdmits, Tx.perform, run_enforceRbac]
    simp only [Session.begin]
    cases rbacError db user exec <;> simp
  rw [hrun, ← missing_eq_none_iff_holds hknows hrequires]
  by_cases hadmin : isAdmin user = true
  · simp [rbacError, hadmin]
  · simp [rbacError, hadmin, hstep]

theorem rbacAdmits_iff (casing : Lowering) (hknows : directory.Knows user) :
    RbacAdmits casing requirement user ↔
      (isAdmin user = true ∨ IsSuperadmin user casing) ∨
        (HoldsVariant requirement user casing ∧ HoldsPermission requirement user) := by
  have hadmin : checkRole casing user "admin" = .ok () ↔
      isAdmin user = true ∨ IsSuperadmin user casing := by
    rw [checkRole_admin_iff, isAdmin_iff casing, IsSuperadmin, ← exists_or]
    exact exists_congr fun role => and_or_left
  have hpermission : (∀ required ∈ requirement.permission,
      checkPermissions user [required.name] = .ok ()) ↔ HoldsPermission requirement user := by
    apply forall₂_congr
    intro required hrequired
    rw [checkPermissions_eq_ok_iff, List.forall_mem_singleton]
    exact hasPermission_name_iff hknows (requirement.permission_stored required hrequired)
  rw [RbacAdmits, hadmin, hpermission]
  simp only [hasRole_iff, HoldsVariant]

/-- The engine and the RBAC service admit the same users exactly where the service
does not overreach. -/
theorem authority_agrees_iff (casing : Lowering) (requirement : Requirement directory)
    (hknows : directory.Knows user) {db : Database} {exec : RequestStep} {stepDef : WorkflowStep}
    (hstep : db.step? exec.stepId = some stepDef) (hrequires : stepDef.Requires requirement) :
    (EngineAdmits db user exec ↔ RbacAdmits casing requirement user) ↔
      ¬Overreaches requirement user casing := by
  rw [engineAdmits_iff hknows hstep hrequires, rbacAdmits_iff casing hknows]
  have hvariant : HoldsRole requirement user → HoldsVariant requirement user casing :=
    fun hholds => hholds.variant casing
  constructor
  · intro hagree hover
    cases hover with
    | superadmin hadmin hsuper hlacks =>
        rcases hagree.mpr (.inl (.inr hsuper)) with hadmin' | hholds
        · rw [hadmin] at hadmin'
          cases hadmin'
        · exact hlacks hholds
    | variant hadmin hlacks hvariant hpermission =>
        rcases hagree.mpr (.inr ⟨hvariant, hpermission⟩) with hadmin' | hholds
        · rw [hadmin] at hadmin'
          cases hadmin'
        · exact hlacks hholds.1
  · intro hkeeps
    constructor
    · rintro (hadmin | ⟨hrole, hpermission⟩)
      · exact .inl (.inl hadmin)
      · exact .inr ⟨hvariant hrole, hpermission⟩
    · intro hadmits
      by_contra hrefused
      obtain ⟨hadmin, hlacks⟩ := not_or.mp hrefused
      rw [Bool.not_eq_true] at hadmin
      rcases hadmits with (hadmin' | hsuper) | ⟨hholds, hpermission⟩
      · rw [hadmin] at hadmin'
        cases hadmin'
      · exact hkeeps (.superadmin hadmin hsuper hlacks)
      · exact hkeeps (.variant hadmin (fun hrole => hlacks ⟨hrole, hpermission⟩) hholds hpermission)

/-! ### A superadmin at a step for reviewers -/

namespace Sample

def superadminRole : Role := ⟨1, "superadmin", []⟩

def reviewerRole : Role := ⟨2, "Reviewer", []⟩

def superadmin : User where
  id := 1
  email := "superadmin@workflow-platform.com"
  isActive := true
  roles := [superadminRole]

def accounts : Directory where
  roles := [superadminRole, reviewerRole]
  permissions := []
  role_ids := by decide
  role_names := by decide
  permission_ids := List.nodup_nil
  permission_names := List.nodup_nil
  granted := by decide

theorem accounts_known : accounts.Knows superadmin := by
  intro role hrole
  exact List.mem_singleton.mp hrole ▸ List.mem_cons_self

/-- A reviewer is required. -/
def forReviewers : Requirement accounts where
  role := some reviewerRole
  permission := none
  role_stored := by
    rintro _ ⟨⟩
    exact List.mem_cons_of_mem _ List.mem_cons_self
  permission_stored := by
    rintro _ ⟨⟩

def reviewStep : WorkflowStep where
  id := 3
  workflowId := 0
  stepOrder := 1
  name := "Review"
  description := none
  requiredRoleId := some 2
  requiredPermissionId := none
  slaHours := 24
  isConditional := false
  conditionConfig := none

/-- A state with the step, and an execution of it. -/
def atReview : Database := { Database.empty with workflowSteps := [reviewStep] }

def reviewExecution : RequestStep := WorkflowEngine.executionRow 4 3 noon later 5

end Sample

theorem authority_agrees_iff_superadmin :
    (EngineAdmits Sample.atReview Sample.superadmin Sample.reviewExecution ↔
        RbacAdmits .plain Sample.forReviewers Sample.superadmin) ↔
      ¬Overreaches Sample.forReviewers Sample.superadmin .plain :=
  authority_agrees_iff .plain Sample.forReviewers Sample.accounts_known
    (show Sample.atReview.step? Sample.reviewExecution.stepId = some Sample.reviewStep from rfl)
    ⟨rfl, rfl⟩

/-- A superadmin passes the RBAC service and is turned away by the engine. -/
theorem authority_splits :
    ¬∀ (casing : Lowering) (directory : Directory) (requirement : Requirement directory)
      (user : User) (db : Database) (exec : RequestStep) (stepDef : WorkflowStep),
      directory.Knows user → db.step? exec.stepId = some stepDef → stepDef.Requires requirement →
        (EngineAdmits db user exec ↔ RbacAdmits casing requirement user) := by
  intro hagree
  have hsame := hagree .plain Sample.accounts Sample.forReviewers Sample.superadmin Sample.atReview
    Sample.reviewExecution Sample.reviewStep Sample.accounts_known rfl ⟨rfl, rfl⟩
  rw [engineAdmits_iff Sample.accounts_known
      (show Sample.atReview.step? Sample.reviewExecution.stepId = some Sample.reviewStep from rfl)
      (show Sample.reviewStep.Requires Sample.forReviewers from ⟨rfl, rfl⟩),
    rbacAdmits_iff .plain Sample.accounts_known] at hsame
  have hsuper : IsSuperadmin Sample.superadmin .plain :=
    ⟨Sample.superadminRole, List.mem_cons_self, by decide⟩
  rcases hsame.mpr (.inl (.inr hsuper)) with hadmin | ⟨hrole, -⟩
  · revert hadmin
    decide
  · have hheld := hrole Sample.reviewerRole rfl
    revert hheld
    decide

end WorkflowPlatform
