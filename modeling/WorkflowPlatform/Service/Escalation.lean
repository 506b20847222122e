import WorkflowPlatform.Service.Lifetime

/-! # Escalation

Users choose their full names, and the repair of roles goes by full names. So whoever can
log in can come to administrate an installation as soon as it has a role named admin; on
one without that role nothing gives the users of an installation more than they have.
-/

namespace WorkflowPlatform

open Python Security Bootstrap

variable {deployment : Deployment} {site : Installation} {row : StoredUser}

/-! ## Without the role -/

/-- There is no role for a repair to give. -/
def Unrepairable (roles : Roles) : Prop := ∀ role ∈ roles.rows, role.name ≠ "admin"

theorem unrepairable_bootstrap {roles : Roles} (hroles : Unrepairable roles)
    (start : Start deployment) (users : Users) : Unrepairable (bootstrap start users roles).2 := by
  rcases bootstrap_cases start users roles with hrefused | ⟨seeds, users', -, -, heq⟩
  · rw [hrefused]
    exact hroles
  · rw [heq]
    intro role hrole
    rcases ensureRoles_origin role hrole with hold | hname
    · exact hroles role hold
    · intro hadmin
      rw [hadmin] at hname
      exact absurd hname (by decide)

/-- The account is still there, with its standing. -/
def Stands (row : StoredUser) (site : Installation) : Prop :=
  site.users.WellFormed ∧ Unrepairable site.roles ∧
    ∃ row' ∈ site.users.rows, SameStanding row row'

theorem stands_live (hstands : Stands row site) (event : LifeEvent deployment) :
    Stands row (live site event) := by
  obtain ⟨husers, hroles, row', hrow', hsame⟩ := hstands
  refine ⟨(wellFormed_live husers event).1, ?_⟩
  cases event with
  | restart start =>
      obtain ⟨-, hensured⟩ := ensured_bootstrap husers start site.roles
      obtain ⟨row'', hrow'', hsame', -⟩ := hensured.kept row' hrow'
      exact ⟨unrepairable_bootstrap hroles start site.users, row'', hrow'',
        hsame.trans hsame'.sameStanding⟩
  | served event =>
      obtain ⟨row'', hrow'', hsame'⟩ := (standingKept_serve husers event).kept row' hrow'
      exact ⟨hroles, row'', hrow'', hsame.trans hsame'⟩
  | roleFix repair =>
      refine ⟨hroles, ?_⟩
      rcases fixAdminRoles_cases repair site.users site.roles with
        hkept | ⟨adminRole, hrole, hname, -⟩
      · simp only [live, hkept]
        exact ⟨row', hrow', hsame⟩
      · exact absurd hname (hroles adminRole hrole)

/-! ## With the role -/

/-- The request with which a user calls himself an administrator. -/
def promotion (meeting : Meeting deployment) (token : String) : PlatformEvent deployment :=
  .request meeting (some token) (.updateUserMe none (some "Admin") none)

/-- What an update of one's own name stores. -/
theorem updateUserMe_fullName {users : Users} (husers : users.WellFormed)
    (hrow : row ∈ users.rows) (hemail : deployment.emailStr row.user.email = some row.user.email)
    {meeting : Meeting deployment} (hcommit : meeting.commitFails = false) {name : String}
    (hname : name.length ≤ 255) :
    (updateUserMe meeting row none (some name) none users).users =
      users.replace { row with fullName := name } := by
  have hpick : meeting.order.pick (·.user.email = row.user.email) users.rows = some row := by
    apply RowOrder.pick_eq_some_of_unique hrow (decide_eq_true rfl)
    intro other hother hother'
    exact Keyed.ext husers.emails hother hrow (of_decide_eq_true hother')
  have hadmits : users.admits (updatedRow meeting row row.user.email none (some name)) = true := by
    apply Users.admits_iff.mpr
    refine ⟨hname, ?_⟩
    intro other hother hne
    constructor
    · intro heq
      exact hne (congrArg (·.user.id) (Keyed.ext husers.emails hother hrow heq))
    · intro heq
      exact hne (congrArg (·.user.id) (Keyed.ext husers.usernames hother hrow heq))
  simp only [updateUserMe, hemail, Option.getD_none, hpick, if_true, saveUserMe, hcommit, hadmits,
    Bool.not_true, Bool.or_false, Bool.false_eq_true, if_false, users_answered]
  rfl

theorem promoted (husers : site.users.WellFormed) {meeting : Meeting deployment} {token : String}
    (hcurrent : getCurrentUser meeting (some token) site.users = .ok row)
    (hcommit : meeting.commitFails = false)
    (hemail : deployment.emailStr row.user.email = some row.user.email) :
    { row with fullName := "Admin" } ∈
      (live site (.served (promotion meeting token))).users.rows := by
  have hrow := (claims_of_currentUser hcurrent).1
  have hserved : (live site (.served (promotion meeting token))).users =
      site.users.replace { row with fullName := "Admin" } := by
    simp only [live, promotion, serve_admitted hcurrent, Operation.usersAfter, Operation.reply?]
    apply updateUserMe_fullName husers hrow hemail hcommit
    decide
  rw [hserved]
  exact Keyed.mem_update.mpr (.inl ⟨row, hrow, rfl, rfl⟩)

/-- Whoever has a role named admin passes for an administrator. -/
theorem checkRole_of_mem {casing : Lowering} {user : User} {role : Role}
    (hrole : role ∈ user.roles) (hname : role.name = "admin") :
    RbacService.checkRole casing user "admin" = .ok () := by
  apply RbacService.checkRole_admin_iff.mpr
  refine ⟨role, hrole, .inl ?_⟩
  rw [hname]
  exact casing.lower_of_ascii (by decide) (by decide)

/-- A repair makes an administrator of whoever calls himself one. -/
theorem repaired_administrates {casing folding : Lowering} {adminRole : Role}
    (hname : adminRole.name = "admin") (hnamed : row.fullName = "Admin")
    (hheld : ∀ role ∈ row.user.roles, role.id = adminRole.id → role = adminRole) :
    RbacService.checkRole casing (row.repaired folding adminRole).user "admin" = .ok () := by
  have hmatches : namedAdmin folding row = true := by
    have hfolded : folding.lower "Admin" = "admin" :=
      (folding.ascii "Admin" "admin" (by decide)).mpr (by decide)
    rw [namedAdmin, hnamed, hfolded]
    decide
  unfold StoredUser.repaired
  rw [hmatches, Bool.true_and]
  split
  · exact checkRole_of_mem (List.mem_append_right _ (List.mem_singleton_self adminRole)) hname
  · next hgiven =>
    -- he has the role already
    have hany : row.user.roles.any (·.id = adminRole.id) = true := by simpa using hgiven
    obtain ⟨role, hrole, hid⟩ := List.any_eq_true.mp hany
    obtain rfl := hheld role hrole (of_decide_eq_true hid)
    exact checkRole_of_mem hrole hname

/-- The account passes for an administrator. -/
def PassesForAdmin (casing : Lowering) (userId : Uuid) (users : Users) : Prop :=
  ∃ row ∈ users.rows, row.user.id = userId ∧
    RbacService.checkRole casing row.user "admin" = .ok ()

/-- One request and one repair are enough. -/
theorem passesForAdmin_of_promotion (husers : site.users.WellFormed)
    (hids : (site.roles.rows.map (·.id)).Nodup) {meeting : Meeting deployment} {token : String}
    (hcurrent : getCurrentUser meeting (some token) site.users = .ok row)
    (hcommit : meeting.commitFails = false)
    (hemail : deployment.emailStr row.user.email = some row.user.email)
    (hheld : ∀ role ∈ row.user.roles, role ∈ site.roles.rows)
    (hrole : ∃ role ∈ site.roles.rows, role.name = "admin") {repair : RoleFix}
    (hrepair : repair.fails = false) :
    PassesForAdmin deployment.casing row.user.id
      (lived site [.served (promotion meeting token), .roleFix repair]).users := by
  obtain ⟨adminRole, hpick⟩ : ∃ adminRole,
      repair.order.pick (·.name = "admin") site.roles.rows = some adminRole := by
    obtain ⟨role, hmem, hname⟩ := hrole
    apply Option.ne_none_iff_exists'.mp
    intro hnone
    exact of_decide_eq_false (RowOrder.pick_eq_none_iff.mp hnone role hmem) hname
  obtain ⟨hadminRole, hadminName⟩ := RowOrder.pick_some hpick
  refine ⟨StoredUser.repaired { row with fullName := "Admin" } repair.casing adminRole, ?_, ?_, ?_⟩
  · have hmem := promoted husers hcurrent hcommit hemail
    simp only [lived, SerialRun.after_cons, SerialRun.after_nil]
    generalize hserved : live site (.served (promotion meeting token)) = site' at hmem ⊢
    have hsameRoles : site'.roles = site.roles := by
      rw [← hserved]
      rfl
    simp only [live, fixAdminRoles, hsameRoles, hpick, hrepair, Bool.false_eq_true, if_false]
    exact List.mem_map_of_mem hmem
  · exact repaired_id _ _ _
  · apply repaired_administrates (of_decide_eq_true hadminName) rfl
    intro role hrole hid
    exact Keyed.ext hids (hheld role hrole) hadminRole hid

/-- A login is answered with a token by which its user is known until it expires. -/
theorem currentUser_of_login {users : Users} (husers : users.WellFormed) (hrow : row ∈ users.rows)
    {first meeting : Meeting deployment} {password : String} {access : Access}
    (hlogin : login first row.user.email password users = .ok access) {expire : DateTime}
    (hexpire : addMinutes first.now deployment.accessTokenExpireMinutes = some expire)
    (hintime : seconds meeting.now ≤ seconds expire) :
    getCurrentUser meeting (some access.accessToken) users = .ok row := by
  obtain ⟨owner, howner, hemail, -, hactive, hcreated⟩ := account_of_login hlogin
  obtain rfl := Keyed.ext husers.emails howner hrow hemail
  obtain ⟨expire', hexpire', hdecoded⟩ := decode_createAccessToken hcreated
  obtain rfl := Option.some.inj (hexpire.symm.trans hexpire')
  apply currentUser_of_claims husers howner hactive
  · apply decodeToken_eq_some_iff.mpr
    refine ⟨hdecoded, ?_⟩
    intro exp hexp
    obtain rfl := Option.some.inj hexp
    exact hintime
  · rfl

/-- A user with a token that is accepted, as any login of his is answered with, can come to
administrate an installation, by whatever happens to it, if and only if he does already or
the installation has a role named admin; then a request of his with that token and a repair
of the roles are enough. -/
theorem escalation_iff (husers : site.users.WellFormed)
    (hids : (site.roles.rows.map (·.id)).Nodup) {meeting : Meeting deployment} {token : String}
    (hcurrent : getCurrentUser meeting (some token) site.users = .ok row)
    (hcommit : meeting.commitFails = false)
    (hemail : deployment.emailStr row.user.email = some row.user.email)
    (hheld : ∀ role ∈ row.user.roles, role ∈ site.roles.rows) :
    ((∃ life : List (LifeEvent deployment),
        PassesForAdmin deployment.casing row.user.id (lived site life).users) ↔
      RbacService.checkRole deployment.casing row.user "admin" = .ok () ∨
        ∃ role ∈ site.roles.rows, role.name = "admin") ∧
      ((∃ role ∈ site.roles.rows, role.name = "admin") → ∀ repair : RoleFix,
        repair.fails = false → PassesForAdmin deployment.casing row.user.id
          (lived site [.served (promotion meeting token), .roleFix repair]).users) ∧
      ∀ (first : Meeting deployment) password access expire,
        login first row.user.email password site.users = .ok access →
          addMinutes first.now deployment.accessTokenExpireMinutes = some expire →
            seconds meeting.now ≤ seconds expire →
              getCurrentUser meeting (some access.accessToken) site.users = .ok row := by
  have hrow := (claims_of_currentUser hcurrent).1
  have henough : (∃ role ∈ site.roles.rows, role.name = "admin") → ∀ repair : RoleFix,
      repair.fails = false → PassesForAdmin deployment.casing row.user.id
        (lived site [.served (promotion meeting token), .roleFix repair]).users :=
    fun hrole repair hrepair =>
      passesForAdmin_of_promotion husers hids hcurrent hcommit hemail hheld hrole hrepair
  refine ⟨⟨?_, ?_⟩, henough, fun first password access expire hlogin hexpire hintime =>
    currentUser_of_login husers hrow hlogin hexpire hintime⟩
  · intro hreached
    obtain ⟨life, row', hrow', hid, hadmin⟩ := hreached
    -- without the role the account keeps its standing over the whole life
    by_cases hroles : Unrepairable site.roles
    · obtain ⟨hafter, -, later, hlater, hsame⟩ := SerialRun.invariant (Stands row)
        (fun _ event hstands => stands_live hstands event) life
        ⟨husers, hroles, row, hrow, .refl row⟩
      obtain rfl := Keyed.ext hafter.ids hlater hrow' (hsame.id.trans hid.symm)
      exact .inl ((checkRole_congr hsame.roles "admin").symm.trans hadmin)
    · simp only [Unrepairable, not_forall, not_not] at hroles
      obtain ⟨role, hrole, hname⟩ := hroles
      exact .inr ⟨role, hrole, hname⟩
  · intro hable
    rcases hable with hadmin | hrole
    · exact ⟨[], row, hrow, rfl, hadmin⟩
    · exact ⟨_, henough hrole ⟨false, .stored, .plain⟩ rfl⟩

namespace Sample

open Security.Sample

/-- The seeded users, with roles of two scripts. -/
def twiceSeeded : Installation where
  users := seeded
  db := Database.empty
  roles := ⟨[⟨0, "Admin", []⟩, ⟨1, "User", []⟩, ⟨2, "admin", []⟩], 3⟩

/-- The token a user without the role gets when he logs in. -/
def userToken : String := letterJwt.encode ⟨some 1800, .user 1⟩

theorem firstExpire : addMinutes firstMeeting.now plainDeployment.accessTokenExpireMinutes =
    some ⟨1800000000, by decide⟩ := rfl

theorem standardUser_login :
    login firstMeeting standardUser.user.email "user123" seeded = .ok ⟨userToken, "user"⟩ := by
  apply login_of_account seeded_wellFormed _ rfl _ rfl rfl
  · exact List.mem_cons_of_mem _ List.mem_cons_self
  · exact verifyPassword_getPasswordHash strictBcrypt (by decide) (by decide) ()

end Sample

theorem escalation_iff_standardUser :
    PassesForAdmin .plain Security.Sample.standardUser.user.id
      (lived Sample.twiceSeeded [.served (promotion Security.Sample.firstMeeting Sample.userToken),
        .roleFix ⟨false, .stored, .plain⟩]).users := by
  have hcurrent : getCurrentUser Security.Sample.firstMeeting (some Sample.userToken)
      Sample.twiceSeeded.users = .ok Security.Sample.standardUser := by
    apply currentUser_of_login Security.Sample.seeded_wellFormed
      (List.mem_cons_of_mem _ List.mem_cons_self) Sample.standardUser_login Sample.firstExpire
    decide
  have hescalation := @escalation_iff _ Sample.twiceSeeded Security.Sample.standardUser
    Security.Sample.seeded_wellFormed (by decide) _ _ hcurrent rfl rfl (by decide)
  apply hescalation.2.1 _ ⟨false, .stored, .plain⟩ rfl
  exact ⟨_, List.mem_cons_of_mem _ (List.mem_cons_of_mem _ List.mem_cons_self), rfl⟩

end WorkflowPlatform
