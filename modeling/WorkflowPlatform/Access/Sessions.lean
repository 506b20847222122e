import WorkflowPlatform.Access.Accounts

/-! # Sessions

A login is answered with a token that names the account and expires after some minutes.
The platform keeps no record of it: whoever presents a token with a valid signature and
an expiry that has not passed is the user it names.
-/

namespace WorkflowPlatform

open Python

namespace Security

variable {deployment : Deployment}

/-- Whole seconds, as times in tokens are given. -/
def seconds (time : DateTime) : ℕ := time.micros / 1000000

/-- `now + timedelta(minutes=minutes)`; `none` where it overflows. -/
def addMinutes (now : DateTime) (minutes : ℕ) : Option DateTime :=
  if hmax : now.micros + 60000000 * minutes ≤ maxMicros then
    some ⟨now.micros + 60000000 * minutes, hmax⟩
  else none

/-- `create_access_token`, with the expiry of a login. -/
def createAccessToken (deployment : Deployment) (now : DateTime) (subject : Uuid) :
    Option String :=
  (addMinutes now deployment.accessTokenExpireMinutes).map fun expire =>
    deployment.jwt.encode ⟨some (seconds expire), .user subject⟩

/-- The answer to a login. -/
structure Access where
  accessToken : String
  role : String

/-- `POST /login/access-token`. -/
def login (meeting : Meeting deployment) (username password : String) (users : Users) :
    Except HttpException Access :=
  match loginAccessToken deployment.bcrypt deployment.casing meeting.queryFails .stored
      ((meeting.order.rows users.rows).map (·.toAccount)) username password with
  | .error error => .error error
  | .ok token =>
      match createAccessToken deployment meeting.now token.subject with
      | some accessToken => .ok ⟨accessToken, token.role⟩
      | none => .error crash

/-- `jwt.decode`, which checks the signature and the expiry. -/
def decodeToken (jwt : Jwt) (now : DateTime) (token : String) : Option Claims :=
  (jwt.decode token).filter fun claims => claims.exp.all fun exp => seconds now ≤ exp

/-- `get_current_user`, of the token in the header. -/
def getCurrentUser (meeting : Meeting deployment) (token : Option String) (users : Users) :
    Except HttpException StoredUser :=
  match token with
  | none => .error ⟨401, "Not authenticated"⟩
  | some token =>
      match decodeToken deployment.jwt meeting.now token with
      | none => .error ⟨401, "Could not validate credentials"⟩
      | some claims =>
          match claims.sub with
          | .missing => .error crash
          | .malformed => .error ⟨401, "Invalid token payload"⟩
          | .user userId =>
              match meeting.order.pick (·.user.id = userId) users.rows with
              | none => .error ⟨404, "User not found"⟩
              | some user =>
                  if !user.user.isActive then .error ⟨400, "Inactive user"⟩ else .ok user

/-! ## Who is logged in -/

variable {users : Users} {row : StoredUser} {meeting : Meeting deployment}

theorem decodeToken_eq_some_iff {jwt : Jwt} {now : DateTime} {token : String} {claims : Claims} :
    decodeToken jwt now token = some claims ↔
      jwt.decode token = some claims ∧ ∀ exp ∈ claims.exp, seconds now ≤ exp := by
  simp [decodeToken, Option.filter_eq_some_iff, Option.all_eq_true]

/-- A session needs a token that names the account and has not expired. -/
theorem claims_of_currentUser {header : Option String}
    (hcurrent : getCurrentUser meeting header users = .ok row) :
    row ∈ users.rows ∧ row.user.isActive = true ∧ ∃ token, header = some token ∧
      ∃ claims, decodeToken deployment.jwt meeting.now token = some claims ∧
        claims.sub = .user row.user.id := by
  unfold getCurrentUser at hcurrent
  split at hcurrent
  · cases hcurrent
  · next token =>
    split at hcurrent
    · cases hcurrent
    · next claims hclaims =>
      split at hcurrent
      · cases hcurrent
      · cases hcurrent
      · next userId hsub =>
        split at hcurrent
        · cases hcurrent
        · next user hpick =>
          split at hcurrent
          · cases hcurrent
          · next hactive =>
            obtain rfl := Except.ok.inj hcurrent
            obtain ⟨hmem, hid⟩ := RowOrder.pick_some hpick
            rw [of_decide_eq_true hid]
            exact ⟨hmem, by simpa using hactive, token, rfl, claims, hclaims, hsub⟩

/-- Whoever presents such a token is taken for its user. -/
theorem currentUser_of_claims (husers : users.WellFormed) (hrow : row ∈ users.rows)
    (hactive : row.user.isActive = true) {token : String} {claims : Claims}
    (hclaims : decodeToken deployment.jwt meeting.now token = some claims)
    (hsub : claims.sub = .user row.user.id) :
    getCurrentUser meeting (some token) users = .ok row := by
  have hpick : meeting.order.pick (fun other => decide (other.user.id = row.user.id)) users.rows =
      some row := by
    apply RowOrder.pick_eq_some_of_unique hrow (decide_eq_true rfl)
    intro other hother hid
    exact Keyed.ext husers.ids hother hrow (of_decide_eq_true hid)
  simp only [getCurrentUser, hclaims, hsub, hpick, hactive, Bool.not_true, Bool.false_eq_true,
    if_false]

/-! ## Logging in -/

/-- The accounts a login looks through. -/
def Users.accounts (users : Users) (order : RowOrder StoredUser) : List Account :=
  (order.rows users.rows).map (·.toAccount)

theorem Users.mem_accounts {order : RowOrder StoredUser} {account : Account} :
    account ∈ users.accounts order ↔ ∃ row ∈ users.rows, row.toAccount = account := by
  simp [Users.accounts]

/-- A login is the check of the password and a new token. -/
theorem login_eq_ok_iff {username password : String} {access : Access} :
    login meeting username password users = .ok access ↔
      ∃ token, loginAccessToken deployment.bcrypt deployment.casing meeting.queryFails .stored
          (users.accounts meeting.order) username password = .ok token ∧
        createAccessToken deployment meeting.now token.subject = some access.accessToken ∧
        token.role = access.role := by
  rw [login, ← Users.accounts]
  cases loginAccessToken deployment.bcrypt deployment.casing meeting.queryFails .stored
      (users.accounts meeting.order) username password with
  | error error => simp
  | ok token =>
      cases hcreated : createAccessToken deployment meeting.now token.subject with
      | none => simp [hcreated]
      | some accessToken =>
          obtain ⟨text, role⟩ := access
          simp [hcreated]

/-- What the check of a password finds. -/
theorem account_of_loginAccessToken {bcrypt : Bcrypt} {casing : Lowering} {queryFails : Bool}
    {order : RowOrder Account} {accounts : List Account} {username password : String}
    {token : Token}
    (htoken : loginAccessToken bcrypt casing queryFails order accounts username password =
      .ok token) :
    ∃ account ∈ accounts, account.user.email = username ∧
      verifyPassword bcrypt password account.hashedPassword = true ∧
      account.user.isActive = true ∧ token.subject = account.user.id := by
  unfold loginAccessToken at htoken
  split at htoken
  · cases htoken
  · split at htoken
    · cases htoken
    · next account hpick =>
      obtain ⟨hmem, hemail⟩ := RowOrder.pick_some hpick
      split at htoken
      · cases htoken
      · next hverified =>
        split at htoken
        · cases htoken
        · next hactive =>
          obtain rfl := Except.ok.inj htoken
          exact ⟨account, hmem, of_decide_eq_true hemail, by simpa using hverified,
            by simpa using hactive, rfl⟩

/-- A successful login knows the email and the password of an active account. -/
theorem account_of_login {username password : String} {access : Access}
    (hlogin : login meeting username password users = .ok access) :
    ∃ row ∈ users.rows, row.user.email = username ∧
      verifyPassword deployment.bcrypt password row.hashedPassword = true ∧
      row.user.isActive = true ∧
      createAccessToken deployment meeting.now row.user.id = some access.accessToken := by
  obtain ⟨token, htoken, hcreated, -⟩ := login_eq_ok_iff.mp hlogin
  obtain ⟨account, haccount, hemail, hverified, hactive, hsubject⟩ :=
    account_of_loginAccessToken htoken
  obtain ⟨row, hrow, rfl⟩ := Users.mem_accounts.mp haccount
  exact ⟨row, hrow, hemail, hverified, hactive, hsubject ▸ hcreated⟩

/-- Whoever knows them can log in, while the query does not fail and the clock has not run out. -/
theorem login_of_account (husers : users.WellFormed) (hrow : row ∈ users.rows)
    (hactive : row.user.isActive = true) {password : String}
    (hverified : verifyPassword deployment.bcrypt password row.hashedPassword = true)
    (hquery : meeting.queryFails = false) {accessToken : String}
    (hcreated : createAccessToken deployment meeting.now row.user.id = some accessToken) :
    login meeting row.user.email password users =
      .ok ⟨accessToken, primaryRole deployment.casing row.user⟩ := by
  have hpick : RowOrder.stored.pick
      (fun account : Account => decide (account.user.email = row.user.email))
        (users.accounts meeting.order) = some row.toAccount := by
    refine RowOrder.pick_eq_some_of_unique (Users.mem_accounts.mpr ⟨row, hrow, rfl⟩)
      (decide_eq_true rfl) ?_
    intro account haccount hemail
    obtain ⟨other, hother, rfl⟩ := Users.mem_accounts.mp haccount
    rw [Keyed.ext husers.emails hother hrow (of_decide_eq_true hemail)]
  apply login_eq_ok_iff.mpr
  refine ⟨⟨row.user.id, primaryRole deployment.casing row.user⟩, ?_, hcreated, rfl⟩
  simp only [loginAccessToken, hquery, Bool.false_eq_true, if_false, hpick, hverified,
    Bool.not_true, hactive]

/-- What a token that a login was answered with says. -/
theorem decode_createAccessToken {now : DateTime} {subject : Uuid} {token : String}
    (hcreated : createAccessToken deployment now subject = some token) :
    ∃ expire, addMinutes now deployment.accessTokenExpireMinutes = some expire ∧
      deployment.jwt.decode token = some ⟨some (seconds expire), .user subject⟩ := by
  obtain ⟨expire, hexpire, rfl⟩ := Option.map_eq_some_iff.mp hcreated
  exact ⟨expire, hexpire, deployment.jwt.decode_encode _⟩

/-! ## A deployment -/

/-- The claims of a token, in letters. -/
def letters (claims : Claims) : List Char :=
  (match claims.exp with
    | none => ['n']
    | some exp => List.replicate exp 'e') ++
  match claims.sub with
    | .missing => ['m']
    | .malformed => ['x']
    | .user id => List.replicate id 'u'

/-- Tokens that spell their claims out. -/
def letterJwt : Jwt where
  encode claims := String.ofList (letters claims)
  decode text :=
    let found := text.toList
    some {
      exp := if 'n' ∈ found then none else some (found.count 'e')
      sub := if 'm' ∈ found then .missing
        else if 'x' ∈ found then .malformed
        else .user (found.count 'u') }
  decode_encode claims := by
    obtain ⟨exp, sub⟩ := claims
    rw [String.toList_ofList]
    cases exp <;> cases sub <;> simp [letters, List.mem_replicate, List.count_replicate]

namespace Sample

def plainDeployment : Deployment where
  accessTokenExpireMinutes := 30
  bcrypt := strictBcrypt
  jwt := letterJwt
  casing := .plain
  emailStr text := some text
  emailStr_normal _ _ _ := rfl

/-- The first administrator. -/
def defaultAdmin : StoredUser where
  user := ⟨0, "admin@example.com", true, [⟨0, "Admin", []⟩]⟩
  hashedPassword := getPasswordHash strictBcrypt "admin123" ()
  username := "admin"
  fullName := "Default Admin"

/-- A user without the role. -/
def standardUser : StoredUser where
  user := ⟨1, "user@example.com", true, [⟨1, "User", []⟩]⟩
  hashedPassword := getPasswordHash strictBcrypt "user123" ()
  username := "user"
  fullName := "Operational Node"

def seeded : Users := ⟨[defaultAdmin, standardUser], 2⟩

theorem seeded_wellFormed : seeded.WellFormed where
  ids := by decide
  fresh := by
    intro row hrow
    simp only [seeded, List.mem_cons, List.not_mem_nil, or_false] at hrow
    rcases hrow with rfl | rfl <;> decide
  emails := by decide
  usernames := by decide

/-- A request when the year begins that counts the years. -/
def firstMeeting : Meeting plainDeployment where
  now := ⟨0, by decide⟩
  queryFails := false
  commitFails := false
  order := .stored
  salt := ()

/-- The token the administrator gets then. -/
def adminToken : String := letterJwt.encode ⟨some 1800, .user 0⟩

theorem adminToken_created :
    createAccessToken plainDeployment firstMeeting.now 0 = some adminToken := rfl

theorem defaultAdmin_mem : defaultAdmin ∈ seeded.rows := List.mem_cons_self

theorem adminToken_accepted :
    getCurrentUser firstMeeting (some adminToken) seeded = .ok defaultAdmin := by
  apply currentUser_of_claims seeded_wellFormed defaultAdmin_mem rfl
  · apply decodeToken_eq_some_iff.mpr
    refine ⟨letterJwt.decode_encode _, ?_⟩
    intro exp hexp
    obtain rfl := Option.some.inj hexp
    decide
  · rfl

theorem defaultAdmin_login :
    login firstMeeting "admin@example.com" "admin123" seeded = .ok ⟨adminToken, "admin"⟩ := by
  apply login_of_account seeded_wellFormed defaultAdmin_mem rfl _ rfl adminToken_created
  exact verifyPassword_getPasswordHash strictBcrypt (by decide) (by decide) ()

end Sample

end Security

end WorkflowPlatform
