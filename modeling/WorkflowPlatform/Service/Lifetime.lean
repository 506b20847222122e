import WorkflowPlatform.Service.Accountability
import WorkflowPlatform.Service.Bootstrap
import WorkflowPlatform.Service.Sessions

/-! # The life of an installation

Between the starts of its backend an installation serves requests, and now and then its
administrators run the script that is to repair their roles. Whatever happens, only two of
the published accounts administrate it, and every start gives the holders of the published
emails the published passwords back.
-/

namespace WorkflowPlatform

open Python Security Bootstrap

variable {deployment : Deployment}

/-! ## The repair of roles -/

/-- What a run of `fix_admin_roles` meets; the database folds letters on its own. -/
structure RoleFix where
  fails : Bool
  order : RowOrder Role
  casing : Lowering

/-- `full_name ILIKE '%admin%'`. -/
def namedAdmin (casing : Lowering) (row : StoredUser) : Bool :=
  decide ("admin".toList <:+: (casing.lower row.fullName).toList)

/-- Give a user a role that he does not have. -/
def Security.StoredUser.grant (row : StoredUser) (role : Role) : StoredUser :=
  { row with user := { row.user with roles := row.user.roles ++ [role] } }

/-- The role for a user whose full name says so and who does not have it. -/
def Security.StoredUser.repaired (row : StoredUser) (casing : Lowering) (adminRole : Role) :
    StoredUser :=
  if namedAdmin casing row && !row.user.roles.any (·.id = adminRole.id) then row.grant adminRole
  else row

/-- `fix_admin_roles`, with the role named admin. -/
def fixAdminRoles (repair : RoleFix) (users : Users) (roles : Roles) : Users :=
  match repair.order.pick (·.name = "admin") roles.rows with
  | none => users
  | some adminRole =>
      if repair.fails then users
      else ⟨users.rows.map (·.repaired repair.casing adminRole), users.nextId⟩

/-! ## Lives -/

/-- What happens to an installation. -/
inductive LifeEvent (deployment : Deployment)
  | restart (start : Start deployment)
  | served (event : PlatformEvent deployment)
  | roleFix (repair : RoleFix)

structure Installation extends Platform where
  roles : Roles

/-- An empty database. -/
def Installation.empty : Installation where
  users := ⟨[], 0⟩
  db := Database.empty
  roles := ⟨[], 0⟩

def live (site : Installation) : LifeEvent deployment → Installation
  | .restart start =>
      { site with
        users := (bootstrap start site.users site.roles).1
        roles := (bootstrap start site.users site.roles).2 }
  | .served event => { toPlatform := serve site.toPlatform event, roles := site.roles }
  | .roleFix repair => { site with users := fixAdminRoles repair site.users site.roles }

abbrev lived (site : Installation) (life : List (LifeEvent deployment)) : Installation :=
  SerialRun.after live site life

/-! ## The accounts over a life -/

variable {site : Installation} {users : Users} {roles : Roles}

section Repaired

variable (row : StoredUser) (casing : Lowering) (adminRole : Role)

@[simp] theorem repaired_id : (row.repaired casing adminRole).user.id = row.user.id := by
  unfold StoredUser.repaired
  split <;> rfl

@[simp] theorem repaired_email : (row.repaired casing adminRole).user.email = row.user.email := by
  unfold StoredUser.repaired
  split <;> rfl

@[simp] theorem repaired_username : (row.repaired casing adminRole).username = row.username := by
  unfold StoredUser.repaired
  split <;> rfl

end Repaired

/-- A repair leaves the accounts, or goes through all of them. -/
theorem fixAdminRoles_cases (repair : RoleFix) (users : Users) (roles : Roles) :
    fixAdminRoles repair users roles = users ∨ ∃ adminRole ∈ roles.rows,
      adminRole.name = "admin" ∧ fixAdminRoles repair users roles =
        ⟨users.rows.map (·.repaired repair.casing adminRole), users.nextId⟩ := by
  unfold fixAdminRoles
  cases hpick : repair.order.pick (·.name = "admin") roles.rows with
  | none => exact .inl rfl
  | some adminRole =>
      obtain ⟨hrole, hname⟩ := RowOrder.pick_some hpick
      cases repair.fails with
      | true => exact .inl rfl
      | false => exact .inr ⟨adminRole, hrole, of_decide_eq_true hname, rfl⟩

/-- Every username in use stays in use. -/
def UsernamesKept (users users' : Users) : Prop :=
  ∀ row ∈ users.rows, ∃ row' ∈ users'.rows, row'.username = row.username

theorem wellFormed_fixAdminRoles (husers : users.WellFormed) (repair : RoleFix) (roles : Roles) :
    (fixAdminRoles repair users roles).WellFormed ∧
      UsernamesKept users (fixAdminRoles repair users roles) := by
  rcases fixAdminRoles_cases repair users roles with hsame | ⟨adminRole, -, -, hgranted⟩
  · rw [hsame]
    exact ⟨husers, fun row hrow => ⟨row, hrow, rfl⟩⟩
  · rw [hgranted]
    refine ⟨⟨?_, ?_, ?_, ?_⟩, ?_⟩
    · simpa [Function.comp_def] using husers.ids
    · simpa using husers.fresh
    · simpa [Function.comp_def] using husers.emails
    · simpa [Function.comp_def] using husers.usernames
    · intro row hrow
      exact ⟨_, List.mem_map_of_mem hrow, repaired_username _ _ _⟩

theorem wellFormed_live (husers : site.users.WellFormed) (event : LifeEvent deployment) :
    (live site event).users.WellFormed ∧ UsernamesKept site.users (live site event).users := by
  cases event with
  | restart start =>
      obtain ⟨hafter, hensured⟩ := ensured_bootstrap husers start site.roles
      refine ⟨hafter, ?_⟩
      intro row hrow
      obtain ⟨row', hrow', hsame, -⟩ := hensured.kept row hrow
      exact ⟨row', hrow', hsame.sameStanding.username⟩
  | served event =>
      refine ⟨users_wellFormed_serve husers event, ?_⟩
      intro row hrow
      obtain ⟨row', hrow', hsame⟩ := (standingKept_serve husers event).kept row hrow
      exact ⟨row', hrow', hsame.username⟩
  | roleFix repair => exact wellFormed_fixAdminRoles husers repair site.roles

/-! ## The published passwords -/

/-- All published usernames are in use. -/
def Installed (users : Users) : Prop :=
  ∀ seed ∈ published, ∃ row ∈ users.rows, row.username = seed.username

/-- They are after a first start that nothing fails. -/
theorem installed_first {start : Start deployment} (hfirst : start.firstFails = false)
    (hrecovery : start.recoveryFails = false) :
    (bootstrap start ⟨[], 0⟩ ⟨[], 0⟩).1.WellFormed ∧
      Installed (bootstrap start ⟨[], 0⟩ ⟨[], 0⟩).1 := by
  have hempty : Users.WellFormed ⟨[], 0⟩ := by
    refine ⟨List.nodup_nil, ?_, List.nodup_nil, List.nodup_nil⟩
    intro row hrow
    cases hrow
  refine ⟨(ensured_bootstrap hempty start _).1, ?_⟩
  obtain ⟨users', hall, -, hused⟩ := @ensureAccounts_of_free _ start
    (ensureRoles start.roleOrder roleNames ⟨[], 0⟩).2 ⟨[], 0⟩ published published_apart
    (fun _ _ _ hrow => absurd hrow List.not_mem_nil)
  rw [bootstrap_of_ensured hfirst hrecovery hall]
  exact hused

theorem installed_lived (husers : site.users.WellFormed) (hinstalled : Installed site.users)
    (life : List (LifeEvent deployment)) :
    (lived site life).users.WellFormed ∧ Installed (lived site life).users := by
  apply SerialRun.invariant
    (fun site : Installation => site.users.WellFormed ∧ Installed site.users) _ life
    ⟨husers, hinstalled⟩
  intro site event hkept
  obtain ⟨hafter, husernames⟩ := wellFormed_live hkept.1 event
  refine ⟨hafter, ?_⟩
  intro seed hseed
  obtain ⟨row, hrow, husername⟩ := hkept.2 seed hseed
  obtain ⟨row', hrow', hsame⟩ := husernames row hrow
  exact ⟨row', hrow', hsame.trans husername⟩

/-- From then on no start adds an account. -/
theorem origin_of_installed (husers : users.WellFormed) (hinstalled : Installed users)
    (start : Start deployment) (roles : Roles) :
    ∀ row' ∈ (bootstrap start users roles).1.rows, ∃ row ∈ users.rows,
      SameButPassword row row' := by
  obtain ⟨hafter, hensured⟩ := ensured_bootstrap husers start roles
  intro row' hrow'
  rcases hensured.origin row' hrow' with hold | ⟨seed, hseed, hseeded⟩
  · exact hold
  · -- the username of a new account would be taken
    obtain ⟨row, hrow, husername⟩ := hinstalled seed hseed
    obtain ⟨later, hlater, hsame, -⟩ := hensured.kept row hrow
    have htaken : later.username = row'.username := by
      rw [hsame.sameStanding.username, husername, hseeded.username]
    obtain rfl := Keyed.ext hafter.usernames hlater hrow' htaken
    exact ⟨row, hrow, hsame⟩

theorem published_short : ∀ seed ∈ published,
    '\x00' ∉ seed.password.toList ∧ seed.password.utf8ByteSize ≤ 72 := by
  simp only [published, List.forall_mem_cons]
  refine ⟨?_, ?_, ?_, ?_, ?_⟩
  · decide
  · decide
  · decide
  · decide
  · intro seed hseed
    cases hseed

/-- Who has a published password can log in with it. -/
theorem login_of_published (husers : users.WellFormed) {seed : Seed} (hseed : seed ∈ published)
    {start : Start deployment} {row : StoredUser} (hrow : row ∈ users.rows)
    (hemail : row.user.email = seed.email) (hhash : row.hashedPassword = start.hash seed)
    (hactive : row.user.isActive = true) {meeting : Meeting deployment}
    (hquery : meeting.queryFails = false) {expire : DateTime}
    (hexpire : addMinutes meeting.now deployment.accessTokenExpireMinutes = some expire) :
    ∃ access, login meeting seed.email seed.password users = .ok access := by
  have hverified :
      verifyPassword deployment.bcrypt seed.password row.hashedPassword = true := by
    rw [hhash]
    exact verifyPassword_getPasswordHash deployment.bcrypt (published_short seed hseed).1
      (published_short seed hseed).2 (start.salt seed)
  have hcreated : createAccessToken deployment meeting.now row.user.id =
      some (deployment.jwt.encode ⟨some (seconds expire), .user row.user.id⟩) := by
    rw [createAccessToken, hexpire, Option.map_some]
  rw [← hemail]
  exact ⟨_, login_of_account husers hrow hactive hverified hquery hcreated⟩

/-- Once every published username is in use, whatever is served, repaired and restarted in
between: after a start that nothing fails, all published passwords log in with the
published emails if and only if before it these were emails of active accounts, whatever
passwords their owners had set. No start, failing or not, then adds an account or changes
anything but passwords, and none of an account with another email. -/
theorem published_passwords_return_iff (husers : site.users.WellFormed)
    (hinstalled : Installed site.users) (life : List (LifeEvent deployment))
    (start : Start deployment) {meeting : Meeting deployment}
    (hquery : meeting.queryFails = false) {expire : DateTime}
    (hexpire : addMinutes meeting.now deployment.accessTokenExpireMinutes = some expire) :
    let before := (lived site life).users
    let after := (lived site (life ++ [.restart start])).users
    (start.firstFails = false → start.recoveryFails = false →
        ((∀ seed ∈ published, ∃ access,
            login meeting seed.email seed.password after = .ok access) ↔
          ∀ seed ∈ published, ∃ row ∈ before.rows,
            row.user.email = seed.email ∧ row.user.isActive = true)) ∧
      (∀ row' ∈ after.rows, ∃ row ∈ before.rows, SameButPassword row row') ∧
      ∀ row ∈ before.rows, (∀ seed ∈ published, row.user.email ≠ seed.email) →
        row ∈ after.rows := by
  intro before after
  obtain ⟨hbefore, hinstalled⟩ := installed_lived husers hinstalled life
  have hstarted : after = (bootstrap start before (lived site life).roles).1 := by
    simp only [after, before, lived, SerialRun.after_concat]
    rfl
  obtain ⟨hafter, hensured⟩ := ensured_bootstrap hbefore start (lived site life).roles
  have horigin := origin_of_installed hbefore hinstalled start (lived site life).roles
  rw [← hstarted] at hafter hensured horigin
  refine ⟨fun hfirst hrecovery => ⟨?_, ?_⟩, horigin, ?_⟩
  · intro hlogins seed hseed
    obtain ⟨access, hlogin⟩ := hlogins seed hseed
    obtain ⟨row', hrow', hemail, -, hactive, -⟩ := account_of_login hlogin
    obtain ⟨row, hrow, hsame⟩ := horigin row' hrow'
    exact ⟨row, hrow, hsame.email.symm.trans hemail,
      hsame.sameStanding.isActive.symm.trans hactive⟩
  · intro hheld seed hseed
    obtain ⟨users', hall, hpasswords⟩ := @ensureAccounts_of_held _ start
      (ensureRoles start.roleOrder roleNames (lived site life).roles).2 before published hbefore
      (by decide) (fun seed hseed => (hheld seed hseed).imp fun _ hrow => ⟨hrow.1, hrow.2.1⟩)
    obtain rfl : users' = after := by
      rw [hstarted, bootstrap_of_ensured hfirst hrecovery hall]
    obtain ⟨row', hrow', hemail, hhash⟩ := hpasswords seed hseed
    obtain ⟨row, hrow, hsame⟩ := horigin row' hrow'
    obtain ⟨holder, hholder, hemail', hactive⟩ := hheld seed hseed
    obtain rfl := Keyed.ext hbefore.emails hrow hholder
      (hsame.email.symm.trans (hemail.trans hemail'.symm))
    exact login_of_published hafter hseed hrow' hemail hhash
      (hsame.sameStanding.isActive.trans hactive) hquery hexpire
  · intro row hrow hother
    obtain ⟨row', hrow', -, hkept⟩ := hensured.kept row hrow
    exact hkept hother ▸ hrow'

namespace Sample

open Security.Sample

/-- A start that nothing fails. -/
def freeStart : Start plainDeployment where
  firstFails := false
  recoveryFails := false
  order := .stored
  roleOrder := .stored
  salt _ := ()

/-- An installation after its first start. -/
def installation : Installation where
  users := (bootstrap freeStart ⟨[], 0⟩ ⟨[], 0⟩).1
  db := Database.empty
  roles := (bootstrap freeStart ⟨[], 0⟩ ⟨[], 0⟩).2

/-- The administrator sets a password of his own. -/
def secured : List (LifeEvent plainDeployment) :=
  [.served (.request firstMeeting (some adminToken) (.updateUserMe (some "my own one") none none))]

theorem adminToken_installed :
    getCurrentUser firstMeeting (some adminToken) installation.users = .ok defaultAdmin := by
  apply currentUser_of_claims (installed_first rfl rfl).1 _ rfl
  · apply decodeToken_eq_some_iff.mpr
    refine ⟨letterJwt.decode_encode _, ?_⟩
    intro exp hexp
    obtain rfl := Option.some.inj hexp
    decide
  · rfl
  · exact List.mem_cons_self

theorem secured_lived : (lived installation secured).users =
    (updateUserMe firstMeeting defaultAdmin (some "my own one") none none
      installation.users).users := by
  have hadmitted := @serve_admitted _ installation.toPlatform _ _
    (.updateUserMe (some "my own one") none none) _ adminToken_installed
  simp only [lived, secured, SerialRun.after_cons, SerialRun.after_nil, live, hadmitted]
  rfl

theorem secured_emails : ∀ seed ∈ published, ∃ row ∈ (lived installation secured).users.rows,
    row.user.email = seed.email ∧ row.user.isActive = true := by
  rw [secured_lived]
  decide

end Sample

theorem published_passwords_return_iff_secured : ∃ access,
    login Security.Sample.firstMeeting "admin@example.com" "admin123"
      (lived Sample.installation (Sample.secured ++ [.restart Sample.freeStart])).users =
        .ok access := by
  have hreturn := @published_passwords_return_iff _ Sample.installation (installed_first rfl rfl).1
    (installed_first rfl rfl).2 Sample.secured Sample.freeStart
    Security.Sample.firstMeeting rfl _ rfl
  exact (hreturn.1 rfl rfl).mpr Sample.secured_emails adminUser List.mem_cons_self

/-! ## Who administrates -/

/-- What holds of an installation all its life: accounts have the roles of the published
accounts of their usernames at most. -/
structure Regular (casing : Lowering) (site : Installation) : Prop where
  users : site.users.WellFormed
  roles : RolesKept site.roles
  roled : ∀ row ∈ site.users.rows, ∀ role ∈ row.user.roles,
    ∃ seed ∈ published, row.username = seed.username ∧ role.name = seed.roleName
  reachable : Reachable site.db
  accountable : Accountable casing site.users site.db

theorem regular_empty (casing : Lowering) : Regular casing Installation.empty where
  users := by
    refine ⟨List.nodup_nil, ?_, List.nodup_nil, List.nodup_nil⟩
    intro row hrow
    cases hrow
  roles := ⟨List.nodup_nil, fun _ hrole => absurd hrole List.not_mem_nil⟩
  roled _ hrow := absurd hrow List.not_mem_nil
  reachable := ⟨[], rfl⟩
  accountable := accountable_empty casing _

/-- No role is named admin. -/
theorem ne_admin_of_kept (hroles : RolesKept roles) : ∀ role ∈ roles.rows, role.name ≠ "admin" := by
  intro role hrole hname
  have hknown := hroles.known role hrole
  rw [hname] at hknown
  exact absurd hknown (by decide)

/-- So there is nothing to repair with. -/
theorem fixAdminRoles_of_kept (hroles : RolesKept roles) (repair : RoleFix) (users : Users) :
    fixAdminRoles repair users roles = users := by
  rcases fixAdminRoles_cases repair users roles with hsame | ⟨adminRole, hrole, hname, -⟩
  · exact hsame
  · exact absurd hname (ne_admin_of_kept hroles adminRole hrole)

theorem regular_live (hsite : Regular deployment.casing site)
    (event : LifeEvent deployment) : Regular deployment.casing (live site event) := by
  have husers := (wellFormed_live hsite.users event).1
  cases event with
  | roleFix repair =>
      have hsame := fixAdminRoles_of_kept hsite.roles repair site.users
      simp only [live, hsame]
      exact hsite
  | served event =>
      refine ⟨husers, hsite.roles, ?_, reachable_serve hsite.reachable event,
        accountable_serve hsite.users hsite.reachable.wellFormed hsite.accountable event⟩
      intro row' hrow' role hrole
      obtain ⟨row, hrow, hsame⟩ := (standingKept_serve hsite.users event).origin husers.ids hrow'
        (List.ne_nil_of_mem hrole)
      rw [hsame.roles] at hrole
      rw [hsame.username]
      exact hsite.roled row hrow role hrole
  | restart start =>
      obtain ⟨-, hensured⟩ := ensured_bootstrap hsite.users start site.roles
      refine ⟨husers, rolesKept_bootstrap hsite.roles start site.users, ?_, hsite.reachable, ?_⟩
      · intro row' hrow' role hrole
        rcases hensured.origin row' hrow' with ⟨row, hrow, hsame⟩ | ⟨seed, hseed, hseeded⟩
        · rw [hsame.sameStanding.roles] at hrole
          rw [hsame.sameStanding.username]
          exact hsite.roled row hrow role hrole
        · exact ⟨seed, hseed, hseeded.username, hseeded.roleName hrole⟩
      · apply hsite.accountable.kept
        intro row hrow
        obtain ⟨row', hrow', hsame, -⟩ := hensured.kept row hrow
        exact ⟨row', hrow', hsame.sameStanding⟩

/-- The usernames of the accounts that are to administrate. -/
def Administrates (row : StoredUser) : Prop :=
  row.username = adminUser.username ∨ row.username = recUser.username

/-- Of the names of the roles only one passes for an admin. -/
theorem administrates_of_checkRole {casing : Lowering} {row : StoredUser}
    (hroled : ∀ role ∈ row.user.roles,
      ∃ seed ∈ published, row.username = seed.username ∧ role.name = seed.roleName)
    (hadmin : RbacService.checkRole casing row.user "admin" = .ok ()) : Administrates row := by
  obtain ⟨role, hrole, hname⟩ := RbacService.checkRole_admin_iff.mp hadmin
  obtain ⟨seed, hseed, husername, hroleName⟩ := hroled role hrole
  rw [casing.ascii _ _ (by decide), casing.ascii _ _ (by decide), hroleName] at hname
  rw [Administrates, husername]
  simp only [published, List.mem_cons, List.not_mem_nil, or_false] at hseed
  rcases hseed with rfl | rfl | rfl | rfl
  · exact .inl rfl
  · exact absurd hname (by decide)
  · exact absurd hname (by decide)
  · exact .inr rfl

/-- Whatever happens to an installation from its empty tables on, starts that fail and
repairs of roles included: its engine is in a reachable state; whoever passes for an
administrator has one of two published usernames, and so has whoever stored a definition;
and everyone with a role has the username of a published account with that role. -/
theorem administrators_published (life : List (LifeEvent deployment)) :
    let site := lived Installation.empty life
    Reachable site.db ∧
      (∀ row ∈ site.users.rows, RbacService.checkRole deployment.casing row.user "admin" = .ok () →
        Administrates row) ∧
      (∀ workflow ∈ site.db.workflows, ∃ row ∈ site.users.rows,
        workflow.createdBy = some row.user.id ∧ Administrates row) ∧
      (∀ row ∈ site.users.rows, ∀ role ∈ row.user.roles, ∃ seed ∈ published,
        row.username = seed.username ∧ role.name = seed.roleName) ∧
      (∀ role ∈ site.roles.rows, role.name ≠ "admin") ∧
      ∀ repair, fixAdminRoles repair site.users site.roles = site.users := by
  intro site
  have hsite : Regular deployment.casing site :=
    SerialRun.invariant (Regular deployment.casing)
      (fun _ event hsite => regular_live hsite event) life
      (regular_empty deployment.casing)
  refine ⟨hsite.reachable, ?_, ?_, hsite.roled, ne_admin_of_kept hsite.roles,
    fun repair => fixAdminRoles_of_kept hsite.roles repair site.users⟩
  · intro row hrow hadmin
    exact administrates_of_checkRole (hsite.roled row hrow) hadmin
  · intro workflow hworkflow
    obtain ⟨row, hrow, hcreated, hadmin⟩ := hsite.accountable.defined workflow hworkflow
    exact ⟨row, hrow, hcreated, administrates_of_checkRole (hsite.roled row hrow) hadmin⟩

end WorkflowPlatform
