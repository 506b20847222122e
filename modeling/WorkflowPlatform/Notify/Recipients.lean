import WorkflowPlatform.Foundation.RowOrder
import WorkflowPlatform.Access.Authority

/-! # The recipients of an assignment mail

Who may decide a step is asked twice: the engine looks at the roles and permissions of
one user, and the mail task looks for the users who have one role. The task never looks
at permissions.
-/

namespace WorkflowPlatform

open Python WorkflowEngine

/-! ## The tables of accounts -/

structure UserRow where
  id : Uuid
  email : String
  isActive : Bool
  deriving DecidableEq

structure RoleRow where
  id : Uuid
  name : String
  deriving DecidableEq

/-- A row of `user_roles`. -/
structure UserRole where
  userId : Uuid
  roleId : Uuid

/-- A row of `role_permissions`. -/
structure RolePermission where
  roleId : Uuid
  permissionId : Uuid

/-- The tables, with what their unique columns give. An assignment may be stored twice. -/
structure Accounts where
  users : List UserRow
  roles : List RoleRow
  permissions : List Permission
  userRoles : List UserRole
  rolePermissions : List RolePermission
  user_ids : (users.map (·.id)).Nodup
  user_emails : (users.map (·.email)).Nodup

namespace Accounts

variable (accounts : Accounts)

/-- `role.permissions`, which lists no permission twice. -/
def permissionsOf (roleId : Uuid) : List Permission :=
  ((accounts.rolePermissions.filter (·.roleId = roleId)).flatMap fun link =>
    accounts.permissions.filter (·.id = link.permissionId)).eraseDups

def loadRole (row : RoleRow) : Role where
  id := row.id
  name := row.name
  permissions := accounts.permissionsOf row.id

/-- `user.roles`, which lists no role twice. -/
def rolesOf (userId : Uuid) : List Role :=
  ((accounts.userRoles.filter (·.userId = userId)).flatMap fun link =>
    (accounts.roles.filter (·.id = link.roleId)).map accounts.loadRole).eraseDups

/-- A user as the engine sees him. -/
def loadUser (row : UserRow) : User where
  id := row.id
  email := row.email
  isActive := row.isActive
  roles := accounts.rolesOf row.id

/-- `JOIN user_roles JOIN roles`: a user once for each assignment of a role. -/
def joinRoles : List (UserRow × RoleRow) :=
  accounts.users.flatMap fun user =>
    (accounts.userRoles.filter (·.userId = user.id)).flatMap fun link =>
      (accounts.roles.filter (·.id = link.roleId)).map fun role => (user, role)

/-- The users that have a role. A query for one class lists no object twice. -/
def usersWithRole (order : RowOrder (UserRow × RoleRow)) (roleId : Uuid) : List UserRow :=
  ((order.rows (accounts.joinRoles.filter (·.2.id = roleId))).map Prod.fst).eraseDups

end Accounts

/-! ## The recipients -/

/-- The recipients that `notify_new_assignment` computes for a step. -/
def assignmentEmails (order : RowOrder (UserRow × RoleRow)) (accounts : Accounts)
    (stepDef : WorkflowStep) : List String :=
  match stepDef.requiredRoleId with
  | some roleId => ((accounts.usersWithRole order roleId).filter (·.isActive)).map (·.email)
  | none => []

/-! ## Who is meant -/

/-- The addresses are, without repetition, those of the active users who pass the access check
of the step. -/
structure ReachesEligible (accounts : Accounts) (stepDef : WorkflowStep) (emails : List String) :
    Prop where
  nodup : emails.Nodup
  eligible : ∀ email, email ∈ emails ↔ ∃ user ∈ accounts.users, user.isActive = true ∧
    missing (accounts.loadUser user) stepDef = none ∧ user.email = email

/-- Permissions make no difference: those who have the required role have what else is
required, and where no role is required nobody has what is. -/
def PermissionsDoNotCount (accounts : Accounts) (stepDef : WorkflowStep) : Prop :=
  ∀ user ∈ accounts.users, user.isActive = true → ∀ permissionId ∈ stepDef.requiredPermissionId,
    match stepDef.requiredRoleId with
    | some roleId => roleId ∈ roleIds (accounts.loadUser user) →
        permissionId ∈ permissionIds (accounts.loadUser user)
    | none => permissionId ∉ permissionIds (accounts.loadUser user)

variable {accounts : Accounts} {stepDef : WorkflowStep}
  {order : RowOrder (UserRow × RoleRow)}

/-! ## From the roles to the users -/

theorem mem_joinRoles {user : UserRow} {role : RoleRow} :
    (user, role) ∈ accounts.joinRoles ↔ user ∈ accounts.users ∧ role ∈ accounts.roles ∧
      ∃ link ∈ accounts.userRoles, link.userId = user.id ∧ role.id = link.roleId := by
  simp only [Accounts.joinRoles, List.mem_flatMap, List.mem_map, List.mem_filter,
    decide_eq_true_eq, Prod.mk.injEq]
  constructor
  · rintro ⟨_, huser, link, ⟨hlink, huserId⟩, _, ⟨hrole, hroleId⟩, rfl, rfl⟩
    exact ⟨huser, hrole, link, hlink, huserId, hroleId⟩
  · rintro ⟨huser, hrole, link, hlink, huserId, hroleId⟩
    exact ⟨user, huser, link, ⟨hlink, huserId⟩, role, ⟨hrole, hroleId⟩, rfl, rfl⟩

theorem mem_roleIds_loadUser {user : UserRow} {roleId : Uuid} :
    roleId ∈ roleIds (accounts.loadUser user) ↔ ∃ role ∈ accounts.roles, role.id = roleId ∧
      ∃ link ∈ accounts.userRoles, link.userId = user.id ∧ role.id = link.roleId := by
  simp only [roleIds, Accounts.loadUser, Accounts.rolesOf, List.mem_map, List.mem_eraseDups,
    List.mem_flatMap, List.mem_filter, decide_eq_true_eq]
  constructor
  · rintro ⟨_, ⟨link, ⟨hlink, huserId⟩, role, ⟨hrole, hroleId⟩, rfl⟩, rfl⟩
    exact ⟨role, hrole, rfl, link, hlink, huserId, hroleId⟩
  · rintro ⟨role, hrole, rfl, link, hlink, huserId, hroleId⟩
    exact ⟨_, ⟨link, ⟨hlink, huserId⟩, role, ⟨hrole, hroleId⟩, rfl⟩, rfl⟩

/-- The query finds the users whom the engine sees with the role. -/
theorem mem_usersWithRole {roleId : Uuid} {user : UserRow} :
    user ∈ accounts.usersWithRole order roleId ↔
      user ∈ accounts.users ∧ roleId ∈ roleIds (accounts.loadUser user) := by
  simp only [Accounts.usersWithRole, List.mem_eraseDups, List.mem_map, RowOrder.mem_rows,
    List.mem_filter, decide_eq_true_eq, mem_roleIds_loadUser]
  constructor
  · rintro ⟨⟨_, role⟩, ⟨hjoined, rfl⟩, rfl⟩
    obtain ⟨huser, hrole, hlink⟩ := mem_joinRoles.mp hjoined
    exact ⟨huser, role, hrole, rfl, hlink⟩
  · rintro ⟨huser, role, hrole, rfl, hlink⟩
    exact ⟨(user, role), ⟨mem_joinRoles.mpr ⟨huser, hrole, hlink⟩, rfl⟩, rfl⟩

theorem nodup_eraseDups {α : Type*} [DecidableEq α] (list : List α) : list.eraseDups.Nodup := by
  match list with
  | [] => exact List.nodup_nil
  | head :: tail =>
      rw [List.eraseDups_cons, List.nodup_cons]
      constructor
      · simp [List.mem_eraseDups]
      · exact nodup_eraseDups (tail.filter fun other => !other == head)
termination_by list.length
decreasing_by exact Nat.lt_succ_of_le (List.length_filter_le _ _)

/-- An address names one user. -/
theorem email_injective {user other : UserRow} (huser : user ∈ accounts.users)
    (hother : other ∈ accounts.users) (hemail : user.email = other.email) : user = other :=
  List.inj_on_of_nodup_map accounts.user_emails huser hother hemail

theorem assignmentEmails_nodup : (assignmentEmails order accounts stepDef).Nodup := by
  unfold assignmentEmails
  split
  next roleId hrole =>
    refine List.Nodup.map_on ?_ ((nodup_eraseDups _).filter _)
    intro user huser other hother hemail
    have hstored := (mem_usersWithRole.mp (List.mem_filter.mp huser).1).1
    have hstored' := (mem_usersWithRole.mp (List.mem_filter.mp hother).1).1
    exact email_injective hstored hstored' hemail
  · exact List.nodup_nil

theorem mem_assignmentEmails {email : String} :
    email ∈ assignmentEmails order accounts stepDef ↔ ∃ user ∈ accounts.users,
      user.isActive = true ∧ (∃ roleId ∈ stepDef.requiredRoleId,
        roleId ∈ roleIds (accounts.loadUser user)) ∧ user.email = email := by
  unfold assignmentEmails
  split
  next roleId hrole =>
    simp only [List.mem_map, List.mem_filter, mem_usersWithRole, hrole, Option.mem_def,
      Option.some.injEq, exists_eq_left', and_assoc]
    grind
  next hnone => simp [hnone]

/-- Where permissions do not count and something is required, an active user passes the access
check exactly if there is a required role and he has it. -/
theorem missing_eq_none_iff_role {user : UserRow}
    (hdecides : PermissionsDoNotCount accounts stepDef)
    (hrequires : stepDef.requiredRoleId.isSome ∨ stepDef.requiredPermissionId.isSome)
    (huser : user ∈ accounts.users) (hactive : user.isActive = true) :
    missing (accounts.loadUser user) stepDef = none ↔
      ∃ roleId ∈ stepDef.requiredRoleId, roleId ∈ roleIds (accounts.loadUser user) := by
  have hcounts := hdecides user huser hactive
  rw [missing_eq_none_iff]
  cases hrole : stepDef.requiredRoleId with
  | some roleId =>
      rw [hrole] at hcounts
      simp only [Option.mem_some_iff, forall_eq', exists_eq_left']
      exact ⟨And.left, fun hhas => ⟨hhas, fun permissionId hrequired =>
        hcounts permissionId hrequired hhas⟩⟩
  | none =>
      rw [hrole] at hcounts hrequires
      obtain ⟨permissionId, hpermission⟩ :=
        Option.isSome_iff_exists.mp (hrequires.resolve_left (by simp))
      have hlacks := hcounts permissionId hpermission
      simp only [Option.mem_def, reduceCtorEq, false_and, exists_false, iff_false]
      rintro ⟨-, hhas⟩
      exact hlacks (hhas permissionId hpermission)

/-- Assignment mails go to the users who may decide the step exactly if permissions make no
difference among the active users. -/
theorem assignment_mails_iff (order : RowOrder (UserRow × RoleRow)) (accounts : Accounts)
    (stepDef : WorkflowStep)
    (hrequires : stepDef.requiredRoleId.isSome ∨ stepDef.requiredPermissionId.isSome) :
    ReachesEligible accounts stepDef (assignmentEmails order accounts stepDef) ↔
      PermissionsDoNotCount accounts stepDef := by
  constructor
  · intro hreaches user huser hactive permissionId hpermission
    cases hrole : stepDef.requiredRoleId with
    | some roleId =>
        -- who has the role gets the mail, so he must pass the check
        intro hhas
        have hmailed : user.email ∈ assignmentEmails order accounts stepDef :=
          mem_assignmentEmails.mpr ⟨user, huser, hactive, ⟨roleId, hrole, hhas⟩, rfl⟩
        obtain ⟨other, hother, -, hadmitted, hemail⟩ := (hreaches.eligible _).mp hmailed
        obtain rfl := email_injective hother huser hemail
        exact (missing_eq_none_iff.mp hadmitted).2 permissionId hpermission
    | none =>
        -- who has the permission passes the check, and nobody gets a mail
        intro hhas
        have hadmitted : missing (accounts.loadUser user) stepDef = none := by
          refine missing_eq_none_iff.mpr ⟨by simp [hrole], ?_⟩
          intro _ hrequired
          exact Option.mem_unique hpermission hrequired ▸ hhas
        have hmailed := (hreaches.eligible user.email).mpr ⟨user, huser, hactive, hadmitted, rfl⟩
        obtain ⟨-, -, -, ⟨roleId, hrequired, -⟩, -⟩ := mem_assignmentEmails.mp hmailed
        rw [hrole] at hrequired
        cases hrequired
  · intro hdecides
    refine ⟨assignmentEmails_nodup, fun email => ?_⟩
    rw [mem_assignmentEmails]
    refine exists_congr fun user => and_congr_right fun huser => and_congr_right fun hactive => ?_
    rw [missing_eq_none_iff_role hdecides hrequires huser hactive]

/-! ### Two reviewers, one of them with the permission to pay -/

namespace Sample

def payPermission : Permission := ⟨1, "payments:approve"⟩

def staff : Accounts where
  users := [⟨1, "ada@workflow-platform.com", true⟩, ⟨2, "bob@workflow-platform.com", true⟩]
  roles := [⟨1, "Reviewer"⟩, ⟨2, "Payer"⟩]
  permissions := [payPermission]
  userRoles := [⟨1, 1⟩, ⟨1, 2⟩, ⟨2, 1⟩]
  rolePermissions := [⟨2, 1⟩]
  user_ids := by decide
  user_emails := by decide

/-- Reviewers who may pay are required. -/
def payStep : WorkflowStep := { reviewStep with
  requiredRoleId := some 1
  requiredPermissionId := some payPermission.id }

end Sample

theorem assignment_mails_iff_pay :
    ReachesEligible Sample.staff Sample.payStep
        (assignmentEmails .stored Sample.staff Sample.payStep) ↔
      PermissionsDoNotCount Sample.staff Sample.payStep :=
  assignment_mails_iff .stored Sample.staff Sample.payStep (.inl rfl)

/-- A reviewer who may not pay is told of the payment. -/
theorem assignment_mails_unpermitted :
    ¬∀ (order : RowOrder (UserRow × RoleRow)) (accounts : Accounts) (stepDef : WorkflowStep),
      stepDef.requiredRoleId.isSome ∨ stepDef.requiredPermissionId.isSome →
        ReachesEligible accounts stepDef (assignmentEmails order accounts stepDef) := by
  intro hreaches
  have heligible := (hreaches .stored Sample.staff Sample.payStep (.inl rfl)).eligible
  obtain ⟨user, huser, -, hadmitted, hemail⟩ :=
    (heligible "bob@workflow-platform.com").mp (by decide)
  have hbob : user = ⟨2, "bob@workflow-platform.com", true⟩ :=
    email_injective huser (by decide) hemail
  subst hbob
  exact absurd hadmitted (by decide)

end WorkflowPlatform
