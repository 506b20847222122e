import WorkflowPlatform.Service.Standing

/-! # The bootstrap script

Every start of the backend runs the script. In one transaction it makes sure of the roles
and of three accounts, in a second one of a fourth. It knows an account by its email: one
that is there gets the published password, whoever holds the email by then; one that is
not is created, with its role.
-/

namespace WorkflowPlatform

open Python Security

/-- The rows of `roles`, and the identifier of the next one. -/
structure Roles where
  rows : List Role
  nextId : Uuid

namespace Bootstrap

/-! ## The script -/

/-- An account the script makes sure of. -/
structure Seed where
  email : String
  username : String
  fullName : String
  password : String
  roleName : String

def adminUser : Seed := ⟨"admin@example.com", "admin", "Default Admin", "admin123", "Admin"⟩

def managerUser : Seed :=
  ⟨"manager@example.com", "manager", "Strategic Manager", "manager123", "Manager"⟩

def stdUser : Seed := ⟨"user@example.com", "user", "Operational Node", "user123", "User"⟩

def recUser : Seed :=
  ⟨"recovery@example.com", "recovery", "Emergency Access", "recovery123", "Admin"⟩

def published : List Seed := [adminUser, managerUser, stdUser, recUser]

def roleNames : List String := ["Admin", "Manager", "User"]

/-- What a start meets: failures of the two transactions, the order of rows, and the salts. -/
structure Start (deployment : Deployment) where
  firstFails : Bool
  recoveryFails : Bool
  order : RowOrder StoredUser
  roleOrder : RowOrder Role
  salt : Seed → deployment.bcrypt.Salt

variable {deployment : Deployment}

/-- The role of a name, created if it is not there. -/
def ensureRole (order : RowOrder Role) (roles : Roles) (name : String) : Roles × Role :=
  match order.pick (·.name = name) roles.rows with
  | some role => (roles, role)
  | none =>
      let role : Role := ⟨roles.nextId, name, []⟩
      (⟨roles.rows ++ [role], roles.nextId + 1⟩, role)

/-- The roles of some names, and `role_objects`. -/
def ensureRoles (order : RowOrder Role) : List String → Roles → Roles × List Role
  | [], roles => (roles, [])
  | name :: names, roles =>
      let (roles, role) := ensureRole order roles name
      let (roles, roleObjects) := ensureRoles order names roles
      (roles, role :: roleObjects)

/-- The row of a new account. -/
def Seed.row (seed : Seed) (roleObjects : List Role) (hashedPassword : String) (id : Uuid) :
    StoredUser where
  user := ⟨id, seed.email, true, (roleObjects.find? (·.name = seed.roleName)).toList⟩
  hashedPassword := hashedPassword
  username := seed.username
  fullName := seed.fullName

/-- The hash of the published password. -/
def Start.hash (start : Start deployment) (seed : Seed) : String :=
  getPasswordHash deployment.bcrypt seed.password (start.salt seed)

/-- The account of an email, with the published password. Nothing is flushed before the
commit, but no pending row has an email that is still looked up. -/
def ensureAccount (start : Start deployment) (roleObjects : List Role) (users : Users)
    (seed : Seed) : Option Users :=
  match start.order.pick (·.user.email = seed.email) users.rows with
  | some row => some (users.replace { row with hashedPassword := start.hash seed })
  | none =>
      let row := seed.row roleObjects (start.hash seed) users.nextId
      if users.admits row then some (users.insert row) else none

def ensureAccounts (start : Start deployment) (roleObjects : List Role) :
    List Seed → Users → Option Users
  | [], users => some users
  | seed :: seeds, users =>
      (ensureAccount start roleObjects users seed).bind (ensureAccounts start roleObjects seeds)

/-- `bootstrap`. The demo workflow at its end names columns that the model does not have,
so that it is always rolled back. -/
def bootstrap (start : Start deployment) (users : Users) (roles : Roles) : Users × Roles :=
  let (roles', roleObjects) := ensureRoles start.roleOrder roleNames roles
  match if start.firstFails then none
      else ensureAccounts start roleObjects [adminUser, managerUser, stdUser] users with
  | none => (users, roles)
  | some users' =>
      match if start.recoveryFails then none
          else ensureAccount start roleObjects users' recUser with
      | none => (users', roles')
      | some users'' => (users'', roles')

/-! ## The roles -/

/-- The names of the roles, each once and none but the ones of the script. -/
structure RolesKept (roles : Roles) : Prop where
  names : (roles.rows.map (·.name)).Nodup
  known : ∀ role ∈ roles.rows, role.name ∈ roleNames

variable {order : RowOrder Role} {roles : Roles}

theorem ensureRole_spec (hroles : RolesKept roles) {name : String} (hname : name ∈ roleNames) :
    RolesKept (ensureRole order roles name).1 ∧ (ensureRole order roles name).2.name = name := by
  unfold ensureRole
  cases hpick : order.pick (·.name = name) roles.rows with
  | some role => exact ⟨hroles, of_decide_eq_true (RowOrder.pick_some hpick).2⟩
  | none =>
      refine ⟨⟨?_, ?_⟩, rfl⟩
      · apply Keyed.nodup_concat hroles.names
        intro role hrole
        simpa using RowOrder.pick_eq_none_iff.mp hpick role hrole
      · intro role hrole
        rcases List.mem_append.mp hrole with hold | hnew
        · exact hroles.known role hold
        · rw [List.mem_singleton.mp hnew]
          exact hname

theorem ensureRoles_spec {names : List String} (hnames : ∀ name ∈ names, name ∈ roleNames)
    (hroles : RolesKept roles) :
    RolesKept (ensureRoles order names roles).1 ∧
      (ensureRoles order names roles).2.map (·.name) = names := by
  induction names generalizing roles with
  | nil => exact ⟨hroles, rfl⟩
  | cons name names ih =>
      have hfirst := @ensureRole_spec order roles hroles name (hnames name List.mem_cons_self)
      have hrest := ih (fun name hname => hnames name (List.mem_cons_of_mem _ hname)) hfirst.1
      exact ⟨hrest.1, congrArg₂ List.cons hfirst.2 hrest.2⟩

/-- A start adds no other roles than those of the script. -/
theorem ensureRole_origin {name : String} :
    ∀ role ∈ (ensureRole order roles name).1.rows, role ∈ roles.rows ∨ role.name = name := by
  unfold ensureRole
  intro role hrole
  cases hpick : order.pick (·.name = name) roles.rows with
  | some found =>
      rw [hpick] at hrole
      exact .inl hrole
  | none =>
      rw [hpick] at hrole
      rcases List.mem_append.mp hrole with hold | hnew
      · exact .inl hold
      · rw [List.mem_singleton.mp hnew]
        exact .inr rfl

theorem ensureRoles_origin {names : List String} :
    ∀ role ∈ (ensureRoles order names roles).1.rows, role ∈ roles.rows ∨ role.name ∈ names := by
  induction names generalizing roles with
  | nil => exact fun role hrole => .inl hrole
  | cons name names ih =>
      intro role hrole
      rcases ih role hrole with hfirst | hname
      · rcases ensureRole_origin role hfirst with hold | hname
        · exact .inl hold
        · exact .inr (hname ▸ List.mem_cons_self)
      · exact .inr (List.mem_cons_of_mem _ hname)

/-! ## The accounts -/

/-- A later row of an account that differs in the password at most. -/
def SameButPassword (row row' : StoredUser) : Prop :=
  row' = { row with hashedPassword := row'.hashedPassword }

/-- The row of a new account, whatever its identifier and its password. -/
def Seeded (roleObjects : List Role) (seed : Seed) (row : StoredUser) : Prop :=
  row = seed.row roleObjects row.hashedPassword row.user.id

theorem SameButPassword.sameStanding {row row' : StoredUser} (hsame : SameButPassword row row') :
    SameStanding row row' := by
  rw [hsame]
  exact ⟨rfl, rfl, rfl, rfl⟩

theorem SameButPassword.email {row row' : StoredUser} (hsame : SameButPassword row row') :
    row'.user.email = row.user.email := by
  rw [hsame]

theorem SameButPassword.refl (row : StoredUser) : SameButPassword row row := rfl

theorem SameButPassword.trans {first second third : StoredUser}
    (hfirst : SameButPassword first second) (hsecond : SameButPassword second third) :
    SameButPassword first third := by
  rw [SameButPassword, hsecond, hfirst]

theorem Seeded.of_same {roleObjects : List Role} {seed : Seed} {row row' : StoredUser}
    (hseeded : Seeded roleObjects seed row) (hsame : SameButPassword row row') :
    Seeded roleObjects seed row' := by
  rw [Seeded, hsame, hseeded]
  rfl

theorem Seeded.username {roleObjects : List Role} {seed : Seed} {row : StoredUser}
    (hseeded : Seeded roleObjects seed row) : row.username = seed.username := by
  rw [hseeded]
  rfl

theorem Seeded.roleName {roleObjects : List Role} {seed : Seed} {row : StoredUser}
    (hseeded : Seeded roleObjects seed row) {role : Role} (hrole : role ∈ row.user.roles) :
    role.name = seed.roleName := by
  rw [hseeded] at hrole
  have hfound : roleObjects.find? (·.name = seed.roleName) = some role := Option.mem_toList.mp hrole
  simpa using List.find?_some hfound

/-- What making sure of accounts does: every account stays, with its password unless it has
one of the emails, and what is new are accounts of the script. -/
structure Ensured (roleObjects : List Role) (seeds : List Seed) (users users' : Users) :
    Prop where
  kept : ∀ row ∈ users.rows, ∃ row' ∈ users'.rows, SameButPassword row row' ∧
    ((∀ seed ∈ seeds, row.user.email ≠ seed.email) → row' = row)
  origin : ∀ row' ∈ users'.rows, (∃ row ∈ users.rows, SameButPassword row row') ∨
    ∃ seed ∈ seeds, Seeded roleObjects seed row'

variable {start : Start deployment} {roleObjects : List Role} {users users' users'' : Users}
  {seed : Seed} {seeds : List Seed}

theorem Ensured.refl (users : Users) : Ensured roleObjects seeds users users where
  kept row hrow := ⟨row, hrow, .refl row, fun _ => rfl⟩
  origin row hrow := .inl ⟨row, hrow, .refl row⟩

theorem Ensured.trans {first second : List Seed} (hfirst : Ensured roleObjects first users users')
    (hsecond : Ensured roleObjects second users' users'') :
    Ensured roleObjects (first ++ second) users users'' where
  kept := by
    intro row hrow
    obtain ⟨row', hrow', hsame, hkept⟩ := hfirst.kept row hrow
    obtain ⟨row'', hrow'', hsame', hkept'⟩ := hsecond.kept row' hrow'
    refine ⟨row'', hrow'', hsame.trans hsame', ?_⟩
    intro hother
    have heq := hkept fun seed hseed => hother seed (List.mem_append_left _ hseed)
    subst heq
    exact hkept' fun seed hseed => hother seed (List.mem_append_right _ hseed)
  origin := by
    intro row'' hrow''
    rcases hsecond.origin row'' hrow'' with ⟨row', hrow', hsame⟩ | ⟨seed, hseed, hseeded⟩
    · rcases hfirst.origin row' hrow' with ⟨row, hrow, hsame'⟩ | ⟨seed, hseed, hseeded⟩
      · exact .inl ⟨row, hrow, hsame'.trans hsame⟩
      · exact .inr ⟨seed, List.mem_append_left _ hseed, hseeded.of_same hsame⟩
    · exact .inr ⟨seed, List.mem_append_right _ hseed, hseeded⟩

theorem Ensured.mono {seeds' : List Seed} (hensured : Ensured roleObjects seeds users users')
    (hseeds : seeds ⊆ seeds') : Ensured roleObjects seeds' users users' where
  kept := by
    intro row hrow
    obtain ⟨row', hrow', hsame, hkept⟩ := hensured.kept row hrow
    exact ⟨row', hrow', hsame, fun hother => hkept fun seed hseed => hother seed (hseeds hseed)⟩
  origin := by
    intro row' hrow'
    apply (hensured.origin row' hrow').imp_right
    intro hseeded
    obtain ⟨seed, hseed, hseeded⟩ := hseeded
    exact ⟨seed, hseeds hseed, hseeded⟩

/-- One account is made sure of. -/
theorem ensured_ensureAccount (husers : users.WellFormed)
    (hensured : ensureAccount start roleObjects users seed = some users') :
    users'.WellFormed ∧ Ensured roleObjects [seed] users users' := by
  unfold ensureAccount at hensured
  cases hpick : start.order.pick (·.user.email = seed.email) users.rows with
  | some row =>
      rw [hpick] at hensured
      obtain rfl := Option.some.inj hensured
      obtain ⟨hrow, hemail⟩ := RowOrder.pick_some hpick
      have hemail := of_decide_eq_true hemail
      refine ⟨?_, ?_, ?_⟩
      · apply husers.replace
        · intro other hother hne
          constructor
          · intro heq
            exact hne (congrArg (·.user.id) (Keyed.ext husers.emails hother hrow heq))
          · intro heq
            exact hne (congrArg (·.user.id) (Keyed.ext husers.usernames hother hrow heq))
        · exact husers.fresh row hrow
      · intro other hother
        by_cases hid : other.user.id = row.user.id
        · obtain rfl := Keyed.ext husers.ids hother hrow hid
          refine ⟨_, Keyed.mem_update.mpr (.inl ⟨other, hother, rfl, rfl⟩), rfl, ?_⟩
          intro hne
          exact absurd hemail (hne seed (List.mem_singleton_self seed))
        · exact ⟨other, Keyed.mem_update.mpr (.inr ⟨hother, hid⟩), .refl other, fun _ => rfl⟩
      · intro other hother
        rcases Keyed.mem_update.mp hother with ⟨_, -, -, rfl⟩ | ⟨hold, -⟩
        · exact .inl ⟨row, hrow, rfl⟩
        · exact .inl ⟨other, hold, .refl other⟩
  | none =>
      rw [hpick] at hensured
      dsimp only at hensured
      split at hensured
      · next hadmits =>
        obtain rfl := Option.some.inj hensured
        refine ⟨husers.insert hadmits rfl, ?_, ?_⟩
        · intro other hother
          exact ⟨other, List.mem_append_left _ hother, .refl other, fun _ => rfl⟩
        · intro other hother
          rcases List.mem_append.mp hother with hold | hnew
          · exact .inl ⟨other, hold, .refl other⟩
          · rw [List.mem_singleton.mp hnew]
            exact .inr ⟨seed, List.mem_singleton_self seed, rfl⟩
      · cases hensured

theorem ensured_ensureAccounts (husers : users.WellFormed)
    (hensured : ensureAccounts start roleObjects seeds users = some users') :
    users'.WellFormed ∧ Ensured roleObjects seeds users users' := by
  induction seeds generalizing users with
  | nil =>
      obtain rfl := Option.some.inj hensured
      exact ⟨husers, .refl users⟩
  | cons seed seeds ih =>
      obtain ⟨middle, hfirst, hrest⟩ := Option.bind_eq_some_iff.mp hensured
      obtain ⟨hmiddle, hone⟩ := ensured_ensureAccount husers hfirst
      obtain ⟨hafter, hothers⟩ := ih hmiddle hrest
      exact ⟨hafter, hone.trans hothers⟩

theorem ensureAccounts_append (first second : List Seed) (users : Users) :
    ensureAccounts start roleObjects (first ++ second) users =
      (ensureAccounts start roleObjects first users).bind
        (ensureAccounts start roleObjects second) := by
  induction first generalizing users with
  | nil => rfl
  | cons seed seeds ih =>
      rw [List.cons_append, ensureAccounts, ensureAccounts, Option.bind_assoc]
      congr 1
      funext middle
      exact ih middle

/-- The script makes sure of the first accounts, or of none. -/
theorem bootstrap_cases (start : Start deployment) (users : Users) (roles : Roles) :
    bootstrap start users roles = (users, roles) ∨
      ∃ seeds users', seeds <+: published ∧
        ensureAccounts start (ensureRoles start.roleOrder roleNames roles).2 seeds users =
          some users' ∧
        bootstrap start users roles =
          (users', (ensureRoles start.roleOrder roleNames roles).1) := by
  unfold bootstrap
  generalize ensureRoles start.roleOrder roleNames roles = ensured
  obtain ⟨roles', roleObjects⟩ := ensured
  dsimp only
  split
  · exact .inl rfl
  · next users' hfirst =>
    have hfirst : ensureAccounts start roleObjects [adminUser, managerUser, stdUser] users =
        some users' := by
      split at hfirst
      · cases hfirst
      · exact hfirst
    right
    split
    · exact ⟨_, users', ⟨[recUser], rfl⟩, hfirst, rfl⟩
    · next users'' hlast =>
      have hlast : ensureAccount start roleObjects users' recUser = some users'' := by
        split at hlast
        · cases hlast
        · exact hlast
      refine ⟨published, users'', List.prefix_rfl, ?_, rfl⟩
      change ensureAccounts start roleObjects ([adminUser, managerUser, stdUser] ++ [recUser])
        users = some users''
      rw [ensureAccounts_append, hfirst, Option.bind_some, ensureAccounts, hlast]
      rfl

/-- Where nothing fails it makes sure of them all. -/
theorem bootstrap_of_ensured (hfirst : start.firstFails = false)
    (hrecovery : start.recoveryFails = false)
    (hensured : ensureAccounts start (ensureRoles start.roleOrder roleNames roles).2 published
      users = some users') :
    bootstrap start users roles = (users', (ensureRoles start.roleOrder roleNames roles).1) := by
  change ensureAccounts start _ ([adminUser, managerUser, stdUser] ++ [recUser]) users = _
    at hensured
  rw [ensureAccounts_append] at hensured
  obtain ⟨middle, hmiddle, hlast⟩ := Option.bind_eq_some_iff.mp hensured
  have hlast : ensureAccount start (ensureRoles start.roleOrder roleNames roles).2 middle
      recUser = some users' := by
    obtain ⟨after, hafter, heq⟩ := Option.bind_eq_some_iff.mp hlast
    rw [hafter]
    exact heq
  simp only [bootstrap, hfirst, hrecovery, Bool.false_eq_true, if_false, hmiddle, hlast]

/-- What a start does to the accounts, whether it fails or not. -/
theorem ensured_bootstrap (husers : users.WellFormed) (start : Start deployment)
    (roles : Roles) :
    (bootstrap start users roles).1.WellFormed ∧
      Ensured (ensureRoles start.roleOrder roleNames roles).2 published users
        (bootstrap start users roles).1 := by
  rcases bootstrap_cases start users roles with hrefused | ⟨seeds, users', hseeds, hensured, heq⟩
  · rw [hrefused]
    exact ⟨husers, .refl users⟩
  · rw [heq]
    obtain ⟨hafter, hkept⟩ := ensured_ensureAccounts husers hensured
    exact ⟨hafter, hkept.mono hseeds.subset⟩

theorem rolesKept_bootstrap (hroles : RolesKept roles) (start : Start deployment)
    (users : Users) : RolesKept (bootstrap start users roles).2 := by
  rcases bootstrap_cases start users roles with hrefused | ⟨seeds, users', -, -, heq⟩
  · rw [hrefused]
    exact hroles
  · rw [heq]
    exact (ensureRoles_spec (fun _ hname => hname) hroles).1

/-! ## The published passwords -/

/-- The account of an email has the password the start gives it. -/
def HasPassword (start : Start deployment) (users : Users) (seed : Seed) : Prop :=
  ∃ row ∈ users.rows, row.user.email = seed.email ∧ row.hashedPassword = start.hash seed

/-- Accounts that have the emails get the passwords. -/
theorem ensureAccount_of_held (husers : users.WellFormed)
    (hheld : ∃ row ∈ users.rows, row.user.email = seed.email) :
    ∃ users', ensureAccount start roleObjects users seed = some users' ∧
      HasPassword start users' seed := by
  obtain ⟨row, hrow, hemail⟩ := hheld
  have hpick : start.order.pick (·.user.email = seed.email) users.rows = some row := by
    apply RowOrder.pick_eq_some_of_unique hrow (decide_eq_true hemail)
    intro other hother hother'
    exact Keyed.ext husers.emails hother hrow ((of_decide_eq_true hother').trans hemail.symm)
  rw [ensureAccount, hpick]
  exact ⟨_, rfl, _, Keyed.mem_update.mpr (.inl ⟨row, hrow, rfl, rfl⟩), hemail, rfl⟩

theorem ensureAccounts_of_held (husers : users.WellFormed)
    (hemails : (seeds.map (·.email)).Nodup)
    (hheld : ∀ seed ∈ seeds, ∃ row ∈ users.rows, row.user.email = seed.email) :
    ∃ users', ensureAccounts start roleObjects seeds users = some users' ∧
      ∀ seed ∈ seeds, HasPassword start users' seed := by
  induction seeds generalizing users with
  | nil => exact ⟨users, rfl, fun _ hseed => absurd hseed List.not_mem_nil⟩
  | cons seed seeds ih =>
      rw [List.map_cons, List.nodup_cons] at hemails
      obtain ⟨hfirst, hlast⟩ := List.forall_mem_cons.mp hheld
      obtain ⟨middle, hone, row, hrow, hemail, hhash⟩ :=
        @ensureAccount_of_held _ start roleObjects _ _ husers hfirst
      obtain ⟨hmiddle, hkept⟩ := ensured_ensureAccount husers hone
      obtain ⟨users', hrest, hothers⟩ := ih hmiddle hemails.2 <| by
        intro other hother
        obtain ⟨row, hrow, hemail⟩ := hlast other hother
        obtain ⟨row', hrow', hsame, -⟩ := hkept.kept row hrow
        exact ⟨row', hrow', hsame.email.trans hemail⟩
      refine ⟨users', Option.bind_eq_some_iff.mpr ⟨middle, hone, hrest⟩,
        List.forall_mem_cons.mpr ⟨?_, hothers⟩⟩
      -- the other accounts have other emails, so that the password stays
      obtain ⟨-, hafter⟩ := ensured_ensureAccounts hmiddle hrest
      obtain ⟨row', hrow', -, hsame⟩ := hafter.kept row hrow
      obtain rfl := hsame fun other hother heq =>
        hemails.1 (List.mem_map.mpr ⟨other, hother, heq.symm.trans hemail⟩)
      exact ⟨row', hrow', hemail, hhash⟩

/-! ## New accounts -/

/-- The seeds differ in email and username, and their full names fit. -/
structure SeedsApart (seeds : List Seed) : Prop where
  apart : seeds.Pairwise fun first second =>
    first.email ≠ second.email ∧ first.username ≠ second.username
  fullName : ∀ seed ∈ seeds, seed.fullName.length ≤ 255

theorem published_apart : SeedsApart published where
  apart := by decide
  fullName := by decide

/-- Accounts whose email and username nobody has are created. -/
theorem ensureAccount_of_free (hname : seed.fullName.length ≤ 255)
    (hfree : ∀ row ∈ users.rows,
      row.user.email ≠ seed.email ∧ row.username ≠ seed.username) :
    ensureAccount start roleObjects users seed =
      some (users.insert (seed.row roleObjects (start.hash seed) users.nextId)) := by
  have hpick : start.order.pick (·.user.email = seed.email) users.rows = none := by
    apply RowOrder.pick_eq_none_iff.mpr
    intro row hrow
    exact decide_eq_false (hfree row hrow).1
  have hadmits : users.admits (seed.row roleObjects (start.hash seed) users.nextId) = true :=
    Users.admits_iff.mpr ⟨hname, fun row hrow _ => hfree row hrow⟩
  rw [ensureAccount, hpick]
  exact if_pos hadmits

theorem ensureAccounts_of_free (hseeds : SeedsApart seeds)
    (hfree : ∀ seed ∈ seeds, ∀ row ∈ users.rows,
      row.user.email ≠ seed.email ∧ row.username ≠ seed.username) :
    ∃ users', ensureAccounts start roleObjects seeds users = some users' ∧
      (∀ row ∈ users.rows, row ∈ users'.rows) ∧
      ∀ seed ∈ seeds, ∃ row ∈ users'.rows, row.username = seed.username := by
  induction seeds generalizing users with
  | nil => exact ⟨users, rfl, fun _ hrow => hrow, fun _ hseed => absurd hseed List.not_mem_nil⟩
  | cons seed seeds ih =>
      obtain ⟨hapart, hrest⟩ := List.pairwise_cons.mp hseeds.apart
      have hone := @ensureAccount_of_free _ start roleObjects _ _
        (hseeds.fullName seed List.mem_cons_self) (hfree seed List.mem_cons_self)
      obtain ⟨users', hall, hkept, hused⟩ := @ih
        (users.insert (seed.row roleObjects (start.hash seed) users.nextId))
        ⟨hrest, fun other hother => hseeds.fullName other (List.mem_cons_of_mem _ hother)⟩ <| by
          intro other hother row hrow
          rcases List.mem_append.mp hrow with hold | hnew
          · exact hfree other (List.mem_cons_of_mem _ hother) row hold
          · rw [List.mem_singleton.mp hnew]
            exact hapart other hother
      refine ⟨users', Option.bind_eq_some_iff.mpr ⟨_, hone, hall⟩, ?_, ?_⟩
      · intro row hrow
        exact hkept row (List.mem_append_left _ hrow)
      · exact List.forall_mem_cons.mpr
          ⟨⟨_, hkept _ (List.mem_append_right _ (List.mem_singleton_self _)), rfl⟩, hused⟩

end Bootstrap

end WorkflowPlatform
