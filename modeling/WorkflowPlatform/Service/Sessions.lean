import WorkflowPlatform.Service.Standing

/-! # Sessions over runs

A token is only as good as its signature. As long as nobody can sign for the platform,
a request served for a user follows a login of that user, with his password at that
time, by less than the lifetime of a token. The other way round, who set a password can
log in with it until he sets another one, and is recognised by the token he gets.
-/

namespace WorkflowPlatform

open Python Security

variable {deployment : Deployment} {platform : Platform}
  {events before rest : List (PlatformEvent deployment)}

/-! ## From requests to logins -/

/-- A login among the events was answered with the token. -/
def Issued (platform : Platform) (events : List (PlatformEvent deployment)) (token : String) :
    Prop :=
  ∃ earlier meeting username password later access,
    events = earlier ++ .login meeting username password :: later ∧
      login meeting username password (serveAll platform earlier).users = .ok access ∧
      access.accessToken = token

/-- Every token with a valid signature that is presented was issued before. -/
def Unforged (platform : Platform) (events : List (PlatformEvent deployment)) : Prop :=
  ∀ before meeting token operation rest,
    events = before ++ .request meeting (some token) operation :: rest →
      (deployment.jwt.decode token).isSome → Issued platform before token

/-- Between two moments of a run an account keeps its standing. -/
theorem sameStanding_of_mem (husers : platform.users.WellFormed) {row row' : StoredUser}
    (hrow : row ∈ platform.users.rows) (hrow' : row' ∈ (serveAll platform events).users.rows)
    (hid : row'.user.id = row.user.id) : SameStanding row row' := by
  obtain ⟨later, hlater, hsame⟩ := (standingKept_serveAll husers events).kept row hrow
  have heq : later = row' :=
    Keyed.ext (users_wellFormed_serveAll husers events).ids hlater hrow' (hsame.id.trans hid.symm)
  exact heq ▸ hsame

/-- If no token is forged, whoever a request is served for logged in before it: with the
email and the password of the account at that time, with the roles it has now, and so
shortly before that the token has not expired. -/
theorem requests_follow_logins (husers : platform.users.WellFormed)
    (hunforged : Unforged platform events) {meeting : Meeting deployment}
    {header : Option String} {operation : Operation}
    (hevents : events = before ++ .request meeting header operation :: rest) {row : StoredUser}
    (hcurrent : getCurrentUser meeting header (serveAll platform before).users = .ok row) :
    ∃ earlier meeting' password later expire, ∃ owner ∈ (serveAll platform earlier).users.rows,
      before = earlier ++ .login meeting' owner.user.email password :: later ∧
        verifyPassword deployment.bcrypt password owner.hashedPassword = true ∧
        SameStanding owner row ∧
        addMinutes meeting'.now deployment.accessTokenExpireMinutes = some expire ∧
        seconds meeting.now ≤ seconds expire := by
  obtain ⟨hrow, -, token, rfl, claims, hclaims, hsub⟩ := claims_of_currentUser hcurrent
  obtain ⟨hdecoded, hexpiry⟩ := decodeToken_eq_some_iff.mp hclaims
  obtain ⟨earlier, meeting', username, password, later, access, rfl, hlogin, rfl⟩ :=
    hunforged before meeting token operation rest hevents (by rw [hdecoded]; rfl)
  obtain ⟨owner, howner, rfl, hverified, -, hcreated⟩ := account_of_login hlogin
  obtain ⟨expire, hexpire, hissued⟩ := decode_createAccessToken hcreated
  obtain rfl := Option.some.inj (hdecoded.symm.trans hissued)
  have hid : row.user.id = owner.user.id := (Subject.user.inj hsub).symm
  refine ⟨earlier, meeting', password, later, expire, owner, howner, rfl, hverified, ?_, hexpire,
    hexpiry _ rfl⟩
  -- the account was there at the login and keeps its standing until the request
  have hearlier := users_wellFormed_serveAll husers earlier
  rw [serveAll, SerialRun.after_append] at hrow
  exact sameStanding_of_mem hearlier howner hrow hid

namespace Sample

open Security.Sample

/-- The seeded users, and nothing else. -/
def start : Platform := ⟨seeded, Database.empty⟩

/-- The administrator logs in and asks for something. -/
def adminAsks : List (PlatformEvent plainDeployment) :=
  [.login firstMeeting "admin@example.com" "admin123",
    .request firstMeeting (some adminToken) (.startWorkflow (.calm noon) 0 [])]

theorem adminAsks_unforged : Unforged start adminAsks := by
  intro before meeting token operation rest hevents _
  cases before with
  | nil => cases hevents
  | cons first middle =>
      cases middle with
      | nil =>
          obtain ⟨rfl, hrest⟩ := List.cons.inj hevents
          obtain ⟨hrequest, -⟩ := List.cons.inj hrest
          obtain ⟨-, htoken, -⟩ := PlatformEvent.request.inj hrequest
          rw [← Option.some.inj htoken]
          exact ⟨[], _, _, _, [], _, rfl, defaultAdmin_login, rfl⟩
      | cons second more =>
          have hlength := congrArg List.length hevents
          simp [adminAsks] at hlength

end Sample

theorem requests_follow_logins_adminAsks :
    ∃ earlier meeting password later, ∃ owner ∈ (serveAll Sample.start earlier).users.rows,
      Sample.adminAsks.take 1 = earlier ++ .login meeting owner.user.email password :: later ∧
        SameStanding owner Security.Sample.defaultAdmin := by
  obtain ⟨earlier, meeting, password, later, -, owner, howner, hbefore, -, hsame, -⟩ :=
    @requests_follow_logins _ Sample.start _ (Sample.adminAsks.take 1) []
      Security.Sample.seeded_wellFormed Sample.adminAsks_unforged _ _ _ rfl _
      Security.Sample.adminToken_accepted
  exact ⟨earlier, meeting, password, later, owner, howner, hbefore, hsame⟩

/-! ## From passwords to sessions -/

/-- The password an operation sets. -/
def Operation.password? : Operation → Option String
  | createUser userIn => some userIn.password
  | updateUserMe password _ _ => password
  | _ => none

/-- The account has a password with this hash, and is active. -/
def HasHash (userId : Uuid) (hashedPassword : String) (users : Users) : Prop :=
  ∃ row ∈ users.rows, row.user.id = userId ∧ row.user.isActive = true ∧
    row.hashedPassword = hashedPassword

/-- The owner of an account sets its password, with a token that is accepted. -/
def SetsPassword (userId : Uuid) (platform : Platform) (event : PlatformEvent deployment) : Prop :=
  ∃ meeting token password fullName email current,
    event = .request meeting token (.updateUserMe (some password) fullName email) ∧
      getCurrentUser meeting token platform.users = .ok current ∧ current.user.id = userId

/-- A password stays until its owner sets another one. -/
theorem hasHash_serve (husers : platform.users.WellFormed) {userId : Uuid}
    {hashedPassword : String} (hhash : HasHash userId hashedPassword platform.users)
    {event : PlatformEvent deployment} (hquiet : ¬SetsPassword userId platform event) :
    HasHash userId hashedPassword (serve platform event).users := by
  obtain ⟨row, hrow, hid, hactive, hhashed⟩ := hhash
  have heffect := usersEffect_serve platform event
  generalize (serve platform event).users = users' at heffect ⊢
  cases heffect with
  | untouched => exact ⟨row, hrow, hid, hactive, hhashed⟩
  | created => exact ⟨row, List.mem_append_left _ hrow, hid, hactive, hhashed⟩
  | updated meeting token password fullName text hevent current hcurrent email hemail row' hrow'
      hadmits =>
      have hsame := sameStanding_updatedRow meeting current email password fullName
      rw [← hrow'] at hsame
      by_cases howner : row.user.id = row'.user.id
      · have heq : row = current := Keyed.ext husers.ids hrow (claims_of_currentUser hcurrent).1
          (howner.trans hsame.id)
        subst heq
        refine ⟨row', Keyed.mem_update.mpr (.inl ⟨row, hrow, howner, rfl⟩), hsame.id.trans hid,
          hsame.isActive.trans hactive, ?_⟩
        cases password with
        | none =>
            rw [hrow']
            exact hhashed
        | some password =>
            exact absurd ⟨meeting, token, password, fullName, text, row, hevent, hcurrent, hid⟩
              hquiet
      · exact ⟨row, Keyed.mem_update.mpr (.inr ⟨hrow, howner⟩), hid, hactive, hhashed⟩

theorem hasHash_serveAll (husers : platform.users.WellFormed) {userId : Uuid}
    {hashedPassword : String} (hhash : HasHash userId hashedPassword platform.users)
    (hquiet : SerialRun.EachStep serve (fun platform event => ¬SetsPassword userId platform event)
      platform events) : HasHash userId hashedPassword (serveAll platform events).users :=
  (SerialRun.invariant_of_eachStep
    (fun platform : Platform =>
      platform.users.WellFormed ∧ HasHash userId hashedPassword platform.users)
    (fun _ event hboth hevent => ⟨users_wellFormed_serve hboth.1 event,
      hasHash_serve hboth.1 hboth.2 hevent⟩) events ⟨husers, hhash⟩ hquiet).2

/-- The row an answered operation stored. -/
theorem hasHash_insert {users : Users} {row : StoredUser} {view : UserSchema}
    (hanswer : (answered deployment.emailStr (users.insert row) row).answer = .ok view)
    (hactive : view.isActive = true) :
    HasHash view.id row.hashedPassword (users.insert row) := by
  obtain ⟨hid, hsame⟩ := view_of_answered hanswer
  exact ⟨row, List.mem_append_right _ (List.mem_singleton_self row), hid.symm, hsame ▸ hactive, rfl⟩

theorem hasHash_replace {users : Users} {current row : StoredUser} {view : UserSchema}
    (hcurrent : current ∈ users.rows) (hsame : SameStanding current row)
    (hanswer : (answered deployment.emailStr (users.replace row) row).answer = .ok view)
    (hactive : view.isActive = true) :
    HasHash view.id row.hashedPassword (users.replace row) := by
  obtain ⟨hid, hsameActive⟩ := view_of_answered hanswer
  exact ⟨row, Keyed.mem_update.mpr (.inl ⟨current, hcurrent, hsame.id.symm, rfl⟩), hid.symm,
    hsameActive ▸ hactive, rfl⟩

/-- An operation that is answered has stored the password it sets. -/
theorem hasHash_of_answer {meeting : Meeting deployment} {header : Option String}
    {current : StoredUser} (hcurrent : getCurrentUser meeting header platform.users = .ok current)
    {operation : Operation} {password : String} (hpassword : operation.password? = some password)
    {reply : Reply UserSchema}
    (hreply : operation.reply? meeting current platform.users = some reply)
    {view : UserSchema} (hanswer : reply.answer = .ok view) (hactive : view.isActive = true) :
    HasHash view.id (getPasswordHash deployment.bcrypt password meeting.salt) reply.users := by
  have hmem := (claims_of_currentUser hcurrent).1
  have hupdated : ∀ fullName email,
      reply = updateUserMe meeting current (some password) fullName email platform.users →
        HasHash view.id (getPasswordHash deployment.bcrypt password meeting.salt) reply.users := by
    intro fullName email heq
    subst heq
    obtain ⟨email', hreplaced⟩ := updateUserMe_of_answer hanswer
    rw [hreplaced] at hanswer ⊢
    exact hasHash_replace hmem (sameStanding_updatedRow meeting current email' _ _) hanswer hactive
  cases operation with
  | createWorkflow | deleteWorkflow | startWorkflow | processStep | makeDecision => cases hpassword
  | createUser userIn =>
      obtain rfl := Option.some.inj hpassword
      simp only [Operation.reply?, Option.some.injEq] at hreply
      split at hreply
      · subst hreply
        have hcreated := createUser_of_answer hanswer
        rw [hcreated] at hanswer ⊢
        exact hasHash_insert hanswer hactive
      · subst hreply
        cases hanswer
  | updateUserMe password' fullName text =>
      obtain rfl : password' = some password := hpassword
      cases text with
      | none => exact hupdated fullName none (Option.some.inj hreply).symm
      | some text =>
          simp only [Operation.reply?, Option.some.injEq] at hreply
          split at hreply
          · exact hupdated fullName _ hreply.symm
          · subst hreply
            cases hanswer

/-- A password of at most 72 bytes that an answered operation sets for an active account
logs in over any run in which the owner sets no other one, with the email the account has
by then; and whoever presents the token of that login before it expires, whatever was
served in between, is taken for the owner. -/
theorem password_round_trip (husers : platform.users.WellFormed) {meeting : Meeting deployment}
    {header : Option String} {current : StoredUser}
    (hcurrent : getCurrentUser meeting header platform.users = .ok current)
    {operation : Operation} {password : String} (hpassword : operation.password? = some password)
    {reply : Reply UserSchema}
    (hreply : operation.reply? meeting current platform.users = some reply)
    {view : UserSchema} (hanswer : reply.answer = .ok view) (hactive : view.isActive = true)
    (hnul : '\x00' ∉ password.toList) (hshort : password.utf8ByteSize ≤ 72)
    (hquiet : SerialRun.EachStep serve (fun platform event => ¬SetsPassword view.id platform event)
      (serve platform (.request meeting header operation)) events)
    {meeting' : Meeting deployment} (hquery : meeting'.queryFails = false) {expire : DateTime}
    (hexpire : addMinutes meeting'.now deployment.accessTokenExpireMinutes = some expire) :
    let served := serveAll (serve platform (.request meeting header operation)) events
    ∃ owner ∈ served.users.rows, owner.user.id = view.id ∧ ∃ access,
      login meeting' owner.user.email password served.users = .ok access ∧
        ∀ (later : List (PlatformEvent deployment)) (meeting'' : Meeting deployment),
          seconds meeting''.now ≤ seconds expire → ∃ row,
            getCurrentUser meeting'' (some access.accessToken) (serveAll served later).users =
              .ok row ∧ SameStanding owner row := by
  intro served
  have hserved : (serve platform (.request meeting header operation)).users = reply.users := by
    rw [serve_admitted hcurrent]
    simp only [Operation.usersAfter, hreply]
  have hnext := users_wellFormed_serve husers (.request meeting header operation)
  have hstored := hasHash_of_answer hcurrent hpassword hreply hanswer hactive
  rw [← hserved] at hstored
  obtain ⟨owner, howner, hid, hstill, hhashed⟩ := hasHash_serveAll hnext hstored hquiet
  have hwell : served.users.WellFormed := users_wellFormed_serveAll hnext events
  have hverified : verifyPassword deployment.bcrypt password owner.hashedPassword = true := by
    rw [hhashed]
    exact verifyPassword_getPasswordHash deployment.bcrypt hnul hshort meeting.salt
  have hcreated : createAccessToken deployment meeting'.now owner.user.id =
      some (deployment.jwt.encode ⟨some (seconds expire), .user owner.user.id⟩) := by
    rw [createAccessToken, hexpire, Option.map_some]
  refine ⟨owner, howner, hid, _, login_of_account hwell howner hstill hverified hquery hcreated, ?_⟩
  intro later meeting'' hintime
  obtain ⟨row, hrow, hsame⟩ := (standingKept_serveAll hwell later).kept owner howner
  refine ⟨row, ?_, hsame⟩
  apply currentUser_of_claims (users_wellFormed_serveAll hwell later) hrow
    (hsame.isActive.trans hstill)
  · apply decodeToken_eq_some_iff.mpr
    refine ⟨deployment.jwt.decode_encode _, ?_⟩
    intro exp hexp
    obtain rfl := Option.some.inj hexp
    exact hintime
  · rw [hsame.id]

/-- The administrator sets another password. -/
theorem password_round_trip_admin :
    ∃ users, ∃ owner ∈ users.rows, ∃ access,
      login Security.Sample.firstMeeting owner.user.email "correct horse" users = .ok access := by
  obtain ⟨owner, howner, -, access, hlogin, -⟩ :=
    @password_round_trip _ Sample.start [] Security.Sample.seeded_wellFormed _ _ _
      Security.Sample.adminToken_accepted (.updateUserMe (some "correct horse") none none)
      "correct horse" rfl _ rfl ⟨0, "admin@example.com", "admin", "Default Admin", true⟩ rfl rfl
      (by decide) (by decide) trivial Security.Sample.firstMeeting rfl ⟨1800000000, by decide⟩ rfl
  exact ⟨_, owner, howner, access, hlogin⟩

end WorkflowPlatform
