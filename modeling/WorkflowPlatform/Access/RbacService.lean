import WorkflowPlatform.Python.LetterCase
import WorkflowPlatform.Store.Tables

/-! # The RBAC service

The checks of the API endpoints. They compare names: roles without regard to letter
case, permissions exactly.
-/

namespace WorkflowPlatform

open Python

/-- `PermissionDeniedError`. -/
structure PermissionDenied where
  message : String
  deriving DecidableEq, Repr

namespace RbacService

def hasPermission (user : User) (permissionName : String) : Bool :=
  user.roles.any fun role => role.permissions.any fun permission => permission.name = permissionName

def hasRole (casing : Lowering) (user : User) (roleName : String) : Bool :=
  user.roles.any fun role => casing.lower role.name = casing.lower roleName

/-- The names of the permissions a user has through his roles. -/
def getUserPermissions (user : User) : Finset String :=
  (user.roles.flatMap fun role => role.permissions.map (·.name)).toFinset

/-- All required permissions, or an error that names the missing ones. -/
def checkPermissions (user : User) (requiredPermissions : List String) :
    Except PermissionDenied Unit :=
  let missing := requiredPermissions.filter (· ∉ getUserPermissions user)
  if missing ≠ [] then
    .error ⟨"User lacks required permissions: " ++ String.intercalate ", " missing⟩
  else .ok ()

def adminVariants : List String := ["admin", "ADMIN", "superadmin"]

/-- The required role, where a superadmin passes for an admin. -/
def checkRole (casing : Lowering) (user : User) (requiredRole : String) :
    Except PermissionDenied Unit :=
  if casing.lower requiredRole = "admin" && adminVariants.any (hasRole casing user) then .ok ()
  else if hasRole casing user requiredRole then .ok ()
  else .error ⟨s!"User lacks required role: {requiredRole}"⟩

theorem hasPermission_iff {user : User} {permissionName : String} :
    hasPermission user permissionName = true ↔
      ∃ role ∈ user.roles, ∃ permission ∈ role.permissions, permission.name = permissionName := by
  simp [hasPermission]

theorem mem_getUserPermissions {user : User} {permissionName : String} :
    permissionName ∈ getUserPermissions user ↔ hasPermission user permissionName = true := by
  simp [getUserPermissions, hasPermission]

theorem hasRole_iff {casing : Lowering} {user : User} {roleName : String} :
    hasRole casing user roleName = true ↔
      ∃ role ∈ user.roles, casing.lower role.name = casing.lower roleName := by
  simp [hasRole]

/-- A user passes when no required permission is missing. -/
theorem checkPermissions_eq_ok_iff {user : User} {requiredPermissions : List String} :
    checkPermissions user requiredPermissions = .ok () ↔
      ∀ permissionName ∈ requiredPermissions, hasPermission user permissionName = true := by
  simp only [checkPermissions, ite_eq_right_iff, reduceCtorEq, imp_false, ne_eq, not_not,
    List.filter_eq_nil_iff, decide_eq_true_eq, mem_getUserPermissions]

/-- Who passes for an admin: holders of a role named admin or superadmin. -/
theorem checkRole_admin_iff {casing : Lowering} {user : User} :
    checkRole casing user "admin" = .ok () ↔
      ∃ role ∈ user.roles,
        casing.lower role.name = "admin" ∨ casing.lower role.name = "superadmin" := by
  have hadmin : casing.lower "admin" = "admin" :=
    casing.lower_of_ascii (by decide) (by decide)
  have hupper : casing.lower "ADMIN" = "admin" :=
    (casing.ascii "ADMIN" "admin" (by decide)).mpr (by decide)
  have hsuper : casing.lower "superadmin" = "superadmin" :=
    casing.lower_of_ascii (by decide) (by decide)
  have hvariants : adminVariants.any (hasRole casing user) = true ↔
      ∃ role ∈ user.roles,
        casing.lower role.name = "admin" ∨ casing.lower role.name = "superadmin" := by
    simp only [adminVariants, List.any_cons, List.any_nil, Bool.or_false, Bool.or_eq_true,
      hasRole_iff, hadmin, hupper, hsuper]
    constructor
    · rintro (⟨role, hrole, heq⟩ | ⟨role, hrole, heq⟩ | ⟨role, hrole, heq⟩)
      · exact ⟨role, hrole, .inl heq⟩
      · exact ⟨role, hrole, .inl heq⟩
      · exact ⟨role, hrole, .inr heq⟩
    · rintro ⟨role, hrole, heq | heq⟩
      · exact .inl ⟨role, hrole, heq⟩
      · exact .inr (.inr ⟨role, hrole, heq⟩)
  rw [checkRole, hadmin, decide_eq_true rfl, Bool.true_and]
  by_cases hpasses : adminVariants.any (hasRole casing user) = true
  · rw [if_pos hpasses]
    exact iff_of_true rfl (hvariants.mp hpasses)
  · rw [if_neg hpasses, ← hvariants]
    refine iff_of_false ?_ hpasses
    -- the plain comparison is one of the variants
    have hplain : ¬hasRole casing user "admin" = true := by
      intro hholds
      exact hpasses (List.any_eq_true.mpr ⟨"admin", List.mem_cons_self, hholds⟩)
    rw [if_neg hplain]
    exact nofun

end RbacService

end WorkflowPlatform
