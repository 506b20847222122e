import WorkflowPlatform.Access.Sessions
import WorkflowPlatform.Lifecycle.Reachable

/-! # The platform as it is served

The users and the data of the engine together. A request is served for the user its
token names; the endpoints of definitions and accounts ask for an administrator, the
others leave it to the engine what the user may do. Scans come from the scheduler.
-/

namespace WorkflowPlatform

open Python Security

/-- What an authenticated request asks for, with what the engine meets. -/
inductive Operation
  | createUser (userIn : NewUser)
  | updateUserMe (password fullName email : Option String)
  | createWorkflow (env : Env) (payload : WorkflowCreate)
  | deleteWorkflow (env : Env) (workflowId : Uuid)
  | startWorkflow (env : Env) (workflowId : Uuid) (data : Dict)
  | processStep (env : Env) (requestId : Uuid) (outcome : String) (context : Option Dict)
  | makeDecision (env : Env) (requestId : Uuid) (payload : Dict)

/-- What reaches the platform: a login, a request with the token of its header, or the
scheduler's task. -/
inductive PlatformEvent (deployment : Deployment)
  | login (meeting : Meeting deployment) (username password : String)
  | request (meeting : Meeting deployment) (token : Option String) (operation : Operation)
  | checkAllSlas (env : Env)

structure Platform where
  users : Users
  db : Database

namespace Operation

/-- The answer to a body that its schema refuses. -/
def unprocessable : HttpException := ⟨422, "value is not a valid email address"⟩

/-- The call, if the endpoint finds the user an administrator. -/
def adminOnly (casing : Lowering) (user : User) (call : Call) : Option Call :=
  match RbacService.checkRole casing user "admin" with
  | .ok () => some call
  | .error _ => none

/-- The call of the engine an operation leads to. -/
def call? (casing : Lowering) (user : User) : Operation → Option Call
  | createWorkflow env payload =>
      adminOnly casing user (.createWorkflow env payload user.id)
  | deleteWorkflow env workflowId => adminOnly casing user (.deleteWorkflow env workflowId)
  | startWorkflow env workflowId data => some (.startWorkflow env workflowId user.id data)
  | processStep env requestId outcome context =>
      some (.processStep env requestId user outcome context)
  | makeDecision env requestId payload => some (.makeDecision env requestId user payload)
  | createUser _ | updateUserMe _ _ _ => none

variable {deployment : Deployment}

/-- What an operation on the accounts does. Emails in its body are validated first. -/
def reply? (meeting : Meeting deployment) (current : StoredUser) (users : Users) :
    Operation → Option (Reply UserSchema)
  | createUser userIn => some <|
      match deployment.emailStr userIn.email with
      | some email => Security.createUser meeting current { userIn with email := email } users
      | none => ⟨users, .error unprocessable⟩
  | updateUserMe password fullName none =>
      some (Security.updateUserMe meeting current password fullName none users)
  | updateUserMe password fullName (some text) => some <|
      match deployment.emailStr text with
      | some email =>
          Security.updateUserMe meeting current password fullName (some email) users
      | none => ⟨users, .error unprocessable⟩
  | _ => none

/-- The users after an operation. -/
def usersAfter (meeting : Meeting deployment) (current : StoredUser) (users : Users)
    (operation : Operation) : Users :=
  match operation.reply? meeting current users with
  | some reply => reply.users
  | none => users

/-- The data of the engine after an operation. -/
def dbAfter (casing : Lowering) (user : User) (db : Database) (operation : Operation) : Database :=
  match operation.call? casing user with
  | some call => call.perform db
  | none => db

end Operation

variable {deployment : Deployment}

/-- The platform after an event. -/
def serve (platform : Platform) : PlatformEvent deployment → Platform
  | .login _ _ _ => platform
  | .request meeting token operation =>
      match getCurrentUser meeting token platform.users with
      | .error _ => platform
      | .ok current =>
          { users := operation.usersAfter meeting current platform.users
            db := operation.dbAfter deployment.casing current.user platform.db }
  | .checkAllSlas env => { platform with db := (Call.scanForBreaches env).perform platform.db }

/-- The platform after events that are served one after the other. -/
abbrev serveAll (platform : Platform) (events : List (PlatformEvent deployment)) : Platform :=
  SerialRun.after serve platform events

/-! ## What an event can do -/

variable {platform : Platform} {event : PlatformEvent deployment}

/-- What a request may have called the engine for. -/
def Call.By (user : User) : Call → Prop
  | .createWorkflow _ _ creatorId => creatorId = user.id
  | .deleteWorkflow _ _ => True
  | .startWorkflow _ _ requesterId _ => requesterId = user.id
  | .processStep _ _ decider _ _ | .makeDecision _ _ decider _ => decider = user
  | .scanForBreaches _ => False

/-- Whether the endpoint of a call asks for an administrator. -/
def Call.NeedsAdmin : Call → Prop
  | .createWorkflow _ _ _ | .deleteWorkflow _ _ => True
  | _ => False

theorem Operation.call?_eq_some {casing : Lowering} {user : User} {operation : Operation}
    {call : Call} (hcall : operation.call? casing user = some call) :
    call.By user ∧ (call.NeedsAdmin → RbacService.checkRole casing user "admin" = .ok ()) := by
  have hadmin : ∀ call', Operation.adminOnly casing user call' = some call →
      call' = call ∧ RbacService.checkRole casing user "admin" = .ok () := by
    intro call' hsome
    unfold Operation.adminOnly at hsome
    split at hsome
    · next hrole => exact ⟨Option.some.inj hsome, hrole⟩
    · cases hsome
  cases operation with
  | createUser | updateUserMe => cases hcall
  | createWorkflow =>
      obtain ⟨rfl, hrole⟩ := hadmin _ hcall
      exact ⟨rfl, fun _ => hrole⟩
  | deleteWorkflow =>
      obtain ⟨rfl, hrole⟩ := hadmin _ hcall
      exact ⟨trivial, fun _ => hrole⟩
  | startWorkflow | processStep | makeDecision =>
      obtain rfl := Option.some.inj hcall
      exact ⟨rfl, False.elim⟩

/-- Without a session nothing happens. -/
theorem serve_refused {meeting : Meeting deployment} {token : Option String}
    {operation : Operation} {error : HttpException}
    (hcurrent : getCurrentUser meeting token platform.users = .error error) :
    serve platform (.request meeting token operation) = platform := by
  simp only [serve, hcurrent]

theorem serve_admitted {meeting : Meeting deployment} {token : Option String}
    {operation : Operation} {current : StoredUser}
    (hcurrent : getCurrentUser meeting token platform.users = .ok current) :
    serve platform (.request meeting token operation) =
      ⟨operation.usersAfter meeting current platform.users,
        operation.dbAfter deployment.casing current.user platform.db⟩ := by
  simp only [serve, hcurrent]

/-- An event that changes the data of the engine is a scan or a call for the user who is
logged in, for an administrator where the endpoint asks for one. -/
inductive EngineEffect (platform : Platform) (event : PlatformEvent deployment) : Database → Prop
  | untouched : EngineEffect platform event platform.db
  | scanned (env : Env) (hevent : event = .checkAllSlas env) :
      EngineEffect platform event ((Call.scanForBreaches env).perform platform.db)
  | called (meeting : Meeting deployment) (token : Option String) (operation : Operation)
      (hevent : event = .request meeting token operation) (current : StoredUser)
      (hcurrent : getCurrentUser meeting token platform.users = .ok current) (call : Call)
      (hby : call.By current.user)
      (hadmin : call.NeedsAdmin →
        RbacService.checkRole deployment.casing current.user "admin" = .ok ()) :
      EngineEffect platform event (call.perform platform.db)

theorem engineEffect_serve (platform : Platform) (event : PlatformEvent deployment) :
    EngineEffect platform event (serve platform event).db := by
  cases event with
  | login meeting username password => exact .untouched
  | checkAllSlas env => exact .scanned env rfl
  | request meeting token operation =>
      cases hcurrent : getCurrentUser meeting token platform.users with
      | error error =>
          rw [serve_refused hcurrent]
          exact .untouched
      | ok current =>
          rw [serve_admitted hcurrent]
          cases hcall : operation.call? deployment.casing current.user with
          | none =>
              simp only [Operation.dbAfter, hcall]
              exact .untouched
          | some call =>
              obtain ⟨hby, hadmin⟩ := Operation.call?_eq_some hcall
              simp only [Operation.dbAfter, hcall]
              exact .called meeting token operation rfl current hcurrent call hby hadmin

/-- An event that changes the users inserts one for an administrator, or replaces the row of
the user who is logged in. -/
inductive UsersEffect (platform : Platform) (event : PlatformEvent deployment) : Users → Prop
  | untouched : UsersEffect platform event platform.users
  | created (meeting : Meeting deployment) (token : Option String) (userIn : NewUser)
      (hevent : event = .request meeting token (.createUser userIn)) (current : StoredUser)
      (hcurrent : getCurrentUser meeting token platform.users = .ok current)
      (hadmin : RbacService.checkRole deployment.casing current.user "admin" = .ok ())
      (email : String) (hemail : deployment.emailStr userIn.email = some email) (row : StoredUser)
      (hrow : row = { userIn with email := email }.row meeting.salt platform.users.nextId)
      (hadmits : platform.users.admits row = true) :
      UsersEffect platform event (platform.users.insert row)
  | updated (meeting : Meeting deployment) (token : Option String)
      (password fullName text : Option String)
      (hevent : event = .request meeting token (.updateUserMe password fullName text))
      (current : StoredUser) (hcurrent : getCurrentUser meeting token platform.users = .ok current)
      (email : String) (hemail : ∃ text, deployment.emailStr text = some email) (row : StoredUser)
      (hrow : row = updatedRow meeting current email password fullName)
      (hadmits : platform.users.admits row = true) :
      UsersEffect platform event (platform.users.replace row)

/-- What the update of one's own account stores. -/
theorem usersEffect_updated {meeting : Meeting deployment} {token : Option String}
    {password fullName text email : Option String} {current : StoredUser}
    (hevent : event = .request meeting token (.updateUserMe password fullName text))
    (hcurrent : getCurrentUser meeting token platform.users = .ok current)
    (hemail : ∀ given ∈ email, ∃ text, deployment.emailStr text = some given) :
    UsersEffect platform event
      (updateUserMe meeting current password fullName email platform.users).users := by
  rcases updateUserMe_cases meeting current password fullName email platform.users with
    hkept | ⟨stored, hstored, hadmits, hreplaced⟩
  · rw [hkept]
    exact .untouched
  · rw [hreplaced]
    refine .updated meeting token password fullName text hevent current hcurrent _ ?_ _ rfl hadmits
    cases email with
    | none => exact ⟨_, hstored⟩
    | some given => exact hemail given rfl

theorem usersEffect_serve (platform : Platform) (event : PlatformEvent deployment) :
    UsersEffect platform event (serve platform event).users := by
  cases event with
  | login meeting username password => exact .untouched
  | checkAllSlas env => exact .untouched
  | request meeting token operation =>
      cases hcurrent : getCurrentUser meeting token platform.users with
      | error error =>
          rw [serve_refused hcurrent]
          exact .untouched
      | ok current =>
          rw [serve_admitted hcurrent]
          cases operation with
          | createWorkflow | deleteWorkflow | startWorkflow | processStep | makeDecision =>
              exact .untouched
          | createUser userIn =>
              cases hemail : deployment.emailStr userIn.email with
              | none =>
                  simp only [Operation.usersAfter, Operation.reply?, hemail]
                  exact .untouched
              | some email =>
                  simp only [Operation.usersAfter, Operation.reply?, hemail]
                  rcases createUser_cases meeting current { userIn with email := email }
                    platform.users with hkept | ⟨hadmin, hadmits, hinserted⟩
                  · rw [hkept]
                    exact .untouched
                  · rw [hinserted]
                    exact .created meeting token userIn rfl current hcurrent hadmin email hemail _
                      rfl hadmits
          | updateUserMe password fullName text =>
              cases text with
              | none =>
                  apply usersEffect_updated rfl hcurrent
                  intro given hgiven
                  cases hgiven
              | some text =>
                  cases hemail : deployment.emailStr text with
                  | none =>
                      simp only [Operation.usersAfter, Operation.reply?, hemail]
                      exact .untouched
                  | some email =>
                      simp only [Operation.usersAfter, Operation.reply?, hemail]
                      apply usersEffect_updated rfl hcurrent
                      intro given hgiven
                      exact ⟨text, hemail.trans hgiven⟩

end WorkflowPlatform
