import WorkflowPlatform.Access.Password
import WorkflowPlatform.Access.RbacService

/-! # Accounts

An administrator creates accounts, and everyone updates his own. The endpoints look an
email up before they store it; that no username is taken twice is left to the database.
Neither endpoint gives anyone a role.
-/

namespace WorkflowPlatform

open Python

namespace Security

/-! ## The deployment -/

/-- What `uuid.UUID` makes of the subject of a token. -/
inductive Subject
  | missing
  | malformed
  | user (id : Uuid)
  deriving DecidableEq

/-- The payload of a token; the expiry in seconds. -/
structure Claims where
  exp : Option ℕ
  sub : Subject
  deriving DecidableEq

/-- Tokens signed with the secret key; `decode` is `none` where the signature is not right. -/
structure Jwt where
  encode : Claims → String
  decode : String → Option Claims
  decode_encode : ∀ claims, decode (encode claims) = some claims

/-- The packages and the settings of a deployment; `emailStr` is the validation of an email,
which gives it in normal form. -/
structure Deployment where
  accessTokenExpireMinutes : ℕ
  bcrypt : Bcrypt
  jwt : Jwt
  casing : Lowering
  emailStr : String → Option String
  emailStr_normal : ∀ text email, emailStr text = some email → emailStr email = some email

/-! ## The table -/

/-- A row of `users`. -/
structure StoredUser extends Account where
  username : String
  fullName : String

structure Users where
  rows : List StoredUser
  nextId : Uuid

/-- What the database asks of a row: its columns are long enough, and no other row has
its email or its username. -/
def Users.admits (users : Users) (row : StoredUser) : Bool :=
  row.fullName.length ≤ 255 && users.rows.all fun other =>
    other.user.id = row.user.id ||
      (other.user.email ≠ row.user.email && other.username ≠ row.username)

def Users.insert (users : Users) (row : StoredUser) : Users where
  rows := users.rows ++ [row]
  nextId := users.nextId + 1

/-- Replace the row of an account. -/
def Users.replace (users : Users) (row : StoredUser) : Users where
  rows := Keyed.update (·.user.id) row.user.id (fun _ => row) users.rows
  nextId := users.nextId

/-! ## Schemas -/

/-- `UserCreate`, with the fields a login does not depend on. -/
structure NewUser extends UserCreate where
  username : String
  fullName : String
  username_length : 3 ≤ username.length ∧ username.length ≤ 100
  fullName_length : 1 ≤ fullName.length ∧ fullName.length ≤ 255

/-- `UserSchema`, without the times of the row. -/
structure UserSchema where
  id : Uuid
  email : String
  username : String
  fullName : String
  isActive : Bool
  deriving DecidableEq

/-- The row as it is answered. A row that does not fit the schema cannot be. -/
def UserSchema.ofRow? (emailStr : String → Option String) (row : StoredUser) : Option UserSchema :=
  if 3 ≤ row.username.length ∧ row.username.length ≤ 100 ∧
      1 ≤ row.fullName.length ∧ row.fullName.length ≤ 255 then
    (emailStr row.user.email).map fun email =>
      ⟨row.user.id, email, row.username, row.fullName, row.user.isActive⟩
  else none

/-- The answer to a request that crashes. -/
def crash : HttpException := ⟨500, "Internal Server Error"⟩

/-- The table after a request, and the answer. -/
structure Reply (α : Type) where
  users : Users
  answer : Except HttpException α

/-! ## Endpoints -/

variable (deployment : Deployment)

/-- What a request meets: the clock, failures of the database, the order of rows, and the
salt `gensalt` draws. -/
structure Meeting where
  now : DateTime
  queryFails : Bool
  commitFails : Bool
  order : RowOrder StoredUser
  salt : deployment.bcrypt.Salt

variable {deployment}

/-- A response that is checked against its schema after the commit. -/
def answered (emailStr : String → Option String) (users : Users) (row : StoredUser) :
    Reply UserSchema where
  users := users
  answer := match UserSchema.ofRow? emailStr row with
    | some view => .ok view
    | none => .error crash

/-- The row `create_user` stores. -/
def NewUser.row (userIn : NewUser) (salt : deployment.bcrypt.Salt) (id : Uuid) : StoredUser where
  toAccount := userIn.account deployment.bcrypt salt id
  username := userIn.username
  fullName := userIn.fullName

/-- `POST /users`. -/
def createUser (meeting : Meeting deployment) (current : StoredUser) (userIn : NewUser)
    (users : Users) : Reply UserSchema :=
  match RbacService.checkRole deployment.casing current.user "admin" with
  | .error denied => ⟨users, .error ⟨403, denied.message⟩⟩
  | .ok () =>
      match meeting.order.pick (·.user.email = userIn.email) users.rows with
      | some _ =>
          ⟨users, .error ⟨400, "The user with this username already exists in the system."⟩⟩
      | none =>
          let row := userIn.row meeting.salt users.nextId
          if meeting.commitFails || !users.admits row then ⟨users, .error crash⟩
          else answered deployment.emailStr (users.insert row) row

/-- The row `update_user_me` stores. -/
def updatedRow (meeting : Meeting deployment) (current : StoredUser) (email : String)
    (password fullName : Option String) : StoredUser where
  user := { current.user with email := email }
  hashedPassword := match password with
    | some password => getPasswordHash deployment.bcrypt password meeting.salt
    | none => current.hashedPassword
  username := current.username
  fullName := fullName.getD current.fullName

/-- The assignments, the commit and the answer of `update_user_me`. -/
def saveUserMe (meeting : Meeting deployment) (current : StoredUser) (email : String)
    (password fullName : Option String) (users : Users) : Reply UserSchema :=
  let row := updatedRow meeting current email password fullName
  if meeting.commitFails || !users.admits row then ⟨users, .error crash⟩
  else answered deployment.emailStr (users.replace row) row

/-- `PUT /users/me`. The stored email is validated again, and stored in its normal form
when no other is given. -/
def updateUserMe (meeting : Meeting deployment) (current : StoredUser)
    (password fullName email : Option String) (users : Users) : Reply UserSchema :=
  match deployment.emailStr current.user.email with
  | none => ⟨users, .error crash⟩
  | some stored =>
      match meeting.order.pick (·.user.email = email.getD stored) users.rows with
      | some existing =>
          if existing.user.id = current.user.id then
            saveUserMe meeting current (email.getD stored) password fullName users
          else ⟨users, .error ⟨409, "Email already registered"⟩⟩
      | none => saveUserMe meeting current (email.getD stored) password fullName users

/-- `GET /users`. -/
def readUsers (meeting : Meeting deployment) (current : StoredUser) (skip limit : ℕ)
    (users : Users) : Except HttpException (List UserSchema) :=
  match RbacService.checkRole deployment.casing current.user "admin" with
  | .error denied => .error ⟨403, denied.message⟩
  | .ok () =>
      match (((meeting.order.rows users.rows).drop skip).take limit).mapM
          (UserSchema.ofRow? deployment.emailStr) with
      | some views => .ok views
      | none => .error crash

/-! ## What the endpoints store -/

/-- No two accounts have an identifier, an email or a username in common. -/
structure Users.WellFormed (users : Users) : Prop where
  ids : (users.rows.map (·.user.id)).Nodup
  fresh : ∀ row ∈ users.rows, row.user.id < users.nextId
  emails : (users.rows.map (·.user.email)).Nodup
  usernames : (users.rows.map (·.username)).Nodup

variable {users : Users} {row : StoredUser} {meeting : Meeting deployment} {current : StoredUser}

theorem Users.admits_iff : users.admits row = true ↔ row.fullName.length ≤ 255 ∧
    ∀ other ∈ users.rows, other.user.id ≠ row.user.id →
      other.user.email ≠ row.user.email ∧ other.username ≠ row.username := by
  simp [Users.admits, or_iff_not_imp_left]

theorem users_answered (emailStr : String → Option String) (users : Users) (row : StoredUser) :
    (answered emailStr users row).users = users := rfl

/-- What `create_user` stores: nothing, or the new row, for an administrator. -/
theorem createUser_cases (meeting : Meeting deployment) (current : StoredUser) (userIn : NewUser)
    (users : Users) :
    (createUser meeting current userIn users).users = users ∨
      RbacService.checkRole deployment.casing current.user "admin" = .ok () ∧
        users.admits (userIn.row meeting.salt users.nextId) = true ∧
        (createUser meeting current userIn users).users =
          users.insert (userIn.row meeting.salt users.nextId) := by
  unfold createUser
  cases hrole : RbacService.checkRole deployment.casing current.user "admin" with
  | error denied => exact .inl rfl
  | ok _ =>
      cases meeting.order.pick (·.user.email = userIn.email) users.rows with
      | some _ => exact .inl rfl
      | none =>
          by_cases hrefused : (meeting.commitFails ||
              !users.admits (userIn.row meeting.salt users.nextId)) = true
          · exact .inl (by simp [hrefused])
          · have hadmits : users.admits (userIn.row meeting.salt users.nextId) = true := by
              simp only [Bool.or_eq_true, not_or, Bool.not_eq_true, Bool.not_eq_false'] at hrefused
              exact hrefused.2
            exact .inr ⟨rfl, hadmits, by simp [hrefused, users_answered]⟩

theorem saveUserMe_cases (meeting : Meeting deployment) (current : StoredUser) (email : String)
    (password fullName : Option String) (users : Users) :
    (saveUserMe meeting current email password fullName users).users = users ∨
      users.admits (updatedRow meeting current email password fullName) = true ∧
        (saveUserMe meeting current email password fullName users).users =
          users.replace (updatedRow meeting current email password fullName) := by
  unfold saveUserMe
  by_cases hrefused : (meeting.commitFails ||
      !users.admits (updatedRow meeting current email password fullName)) = true
  · exact .inl (by simp [hrefused])
  · have hadmits : users.admits (updatedRow meeting current email password fullName) = true := by
      simp only [Bool.or_eq_true, not_or, Bool.not_eq_true, Bool.not_eq_false'] at hrefused
      exact hrefused.2
    exact .inr ⟨hadmits, by simp [hrefused, users_answered]⟩

/-- What `update_user_me` stores: nothing, or the user's own row. -/
theorem updateUserMe_cases (meeting : Meeting deployment) (current : StoredUser)
    (password fullName email : Option String) (users : Users) :
    (updateUserMe meeting current password fullName email users).users = users ∨
      ∃ stored, deployment.emailStr current.user.email = some stored ∧
        users.admits (updatedRow meeting current (email.getD stored) password fullName) = true ∧
          (updateUserMe meeting current password fullName email users).users =
            users.replace (updatedRow meeting current (email.getD stored) password fullName) := by
  unfold updateUserMe
  cases deployment.emailStr current.user.email with
  | none => exact .inl rfl
  | some stored =>
      have hsave := saveUserMe_cases meeting current (email.getD stored) password fullName users
      dsimp only
      split
      · split
        · exact hsave.imp_right fun hrow => ⟨stored, rfl, hrow⟩
        · exact .inl rfl
      · exact hsave.imp_right fun hrow => ⟨stored, rfl, hrow⟩

/-! ## What an answer says -/

/-- The answer shows the row that was stored. -/
theorem view_of_answered {view : UserSchema}
    (hanswer : (answered deployment.emailStr users row).answer = .ok view) :
    view.id = row.user.id ∧ view.isActive = row.user.isActive := by
  unfold answered at hanswer
  dsimp only at hanswer
  split at hanswer
  · next found hfound =>
    obtain rfl := Except.ok.inj hanswer
    unfold UserSchema.ofRow? at hfound
    split at hfound
    · obtain ⟨email, -, rfl⟩ := Option.map_eq_some_iff.mp hfound
      exact ⟨rfl, rfl⟩
    · cases hfound
  · cases hanswer

/-- An answered creation has stored the new row. -/
theorem createUser_of_answer {userIn : NewUser} {view : UserSchema}
    (hanswer : (createUser meeting current userIn users).answer = .ok view) :
    createUser meeting current userIn users =
      answered deployment.emailStr (users.insert (userIn.row meeting.salt users.nextId))
        (userIn.row meeting.salt users.nextId) := by
  unfold createUser at hanswer ⊢
  split at hanswer
  · cases hanswer
  · split at hanswer
    · cases hanswer
    · dsimp only at hanswer
      split at hanswer
      · cases hanswer
      · next hstored => simp only [hstored, Bool.false_eq_true, if_false]

theorem saveUserMe_of_answer {email : String} {password fullName : Option String}
    {view : UserSchema}
    (hanswer : (saveUserMe meeting current email password fullName users).answer = .ok view) :
    saveUserMe meeting current email password fullName users =
      answered deployment.emailStr
        (users.replace (updatedRow meeting current email password fullName))
        (updatedRow meeting current email password fullName) := by
  unfold saveUserMe at hanswer ⊢
  dsimp only at hanswer ⊢
  split at hanswer
  · cases hanswer
  · next hstored => rw [if_neg hstored]

/-- An answered update has stored the user's own row. -/
theorem updateUserMe_of_answer {password fullName email : Option String} {view : UserSchema}
    (hanswer : (updateUserMe meeting current password fullName email users).answer = .ok view) :
    ∃ email', updateUserMe meeting current password fullName email users =
      answered deployment.emailStr
        (users.replace (updatedRow meeting current email' password fullName))
        (updatedRow meeting current email' password fullName) := by
  unfold updateUserMe at hanswer ⊢
  split at hanswer
  · cases hanswer
  · next stored _ =>
    split at hanswer
    · split at hanswer
      · next hown =>
        refine ⟨email.getD stored, ?_⟩
        simp only [hown, if_true]
        exact saveUserMe_of_answer hanswer
      · cases hanswer
    · exact ⟨email.getD stored, saveUserMe_of_answer hanswer⟩

/-! ## The table stays well formed -/

theorem Users.WellFormed.insert (husers : users.WellFormed) (hadmits : users.admits row = true)
    (hid : row.user.id = users.nextId) : (users.insert row).WellFormed := by
  have hnew : ∀ other ∈ users.rows, other.user.id ≠ row.user.id := by
    intro other hother
    rw [hid]
    exact (husers.fresh other hother).ne
  obtain ⟨-, hothers⟩ := Users.admits_iff.mp hadmits
  exact {
    ids := Keyed.nodup_concat husers.ids hnew
    fresh := by
      intro other hother
      rcases List.mem_append.mp hother with hold | hlast
      · exact (husers.fresh other hold).trans (Nat.lt_succ_self _)
      · rw [List.mem_singleton.mp hlast, hid]
        exact Nat.lt_succ_self _
    emails := Keyed.nodup_concat husers.emails
      fun other hother => (hothers other hother (hnew other hother)).1
    usernames := Keyed.nodup_concat husers.usernames
      fun other hother => (hothers other hother (hnew other hother)).2 }

/-- A column that no other row has the new value of stays without repetitions. -/
theorem nodup_replace {Column : Type} {column : StoredUser → Column}
    (hids : (users.rows.map (·.user.id)).Nodup) (hcolumn : (users.rows.map column).Nodup)
    (hothers : ∀ other ∈ users.rows, other.user.id ≠ row.user.id → column other ≠ column row) :
    ((users.replace row).rows.map column).Nodup := by
  have hrows : users.rows.Nodup := List.Nodup.of_map _ hids
  rw [Users.replace, Keyed.update, List.map_map]
  apply (List.nodup_map_iff_inj_on hrows).mpr
  intro first hfirst second hsecond heq
  simp only [Function.comp_apply] at heq
  by_cases hfirstId : first.user.id = row.user.id <;>
    by_cases hsecondId : second.user.id = row.user.id
  · exact Keyed.ext hids hfirst hsecond (hfirstId.trans hsecondId.symm)
  · rw [if_pos hfirstId, if_neg hsecondId] at heq
    exact absurd heq.symm (hothers second hsecond hsecondId)
  · rw [if_neg hfirstId, if_pos hsecondId] at heq
    exact absurd heq (hothers first hfirst hfirstId)
  · rw [if_neg hfirstId, if_neg hsecondId] at heq
    exact Keyed.ext hcolumn hfirst hsecond heq

theorem Users.WellFormed.replace (husers : users.WellFormed)
    (hothers : ∀ other ∈ users.rows, other.user.id ≠ row.user.id →
      other.user.email ≠ row.user.email ∧ other.username ≠ row.username)
    (hid : row.user.id < users.nextId) : (users.replace row).WellFormed where
  ids := nodup_replace husers.ids husers.ids fun _ _ hne => hne
  fresh := by
    intro other hother
    rcases Keyed.mem_update.mp hother with ⟨_, -, -, rfl⟩ | ⟨hold, -⟩
    · exact hid
    · exact husers.fresh other hold
  emails := nodup_replace husers.ids husers.emails
    fun other hother hne => (hothers other hother hne).1
  usernames := nodup_replace husers.ids husers.usernames
    fun other hother hne => (hothers other hother hne).2

end Security

end WorkflowPlatform
