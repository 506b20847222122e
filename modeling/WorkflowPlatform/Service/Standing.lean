import WorkflowPlatform.Service.Requests

/-! # The standing of accounts

Roles and activity are given outside the platform. Whatever is served, no request takes
an account away, changes what it is entitled to or makes one that is entitled to
anything, and only its owner changes what else its row says.
-/

namespace WorkflowPlatform

open Python Security

variable {deployment : Deployment} {platform : Platform} {event : PlatformEvent deployment}
  {users users' : Users}

/-- A later row of an account: what its owner may not change is as it was. -/
structure SameStanding (row row' : StoredUser) : Prop where
  id : row'.user.id = row.user.id
  username : row'.username = row.username
  isActive : row'.user.isActive = row.user.isActive
  roles : row'.user.roles = row.user.roles

theorem SameStanding.refl (row : StoredUser) : SameStanding row row := ⟨rfl, rfl, rfl, rfl⟩

theorem SameStanding.trans {first second third : StoredUser} (hfirst : SameStanding first second)
    (hsecond : SameStanding second third) : SameStanding first third where
  id := hsecond.id.trans hfirst.id
  username := hsecond.username.trans hfirst.username
  isActive := hsecond.isActive.trans hfirst.isActive
  roles := hsecond.roles.trans hfirst.roles

/-- The owner of an account updates it, with a token that is accepted. -/
def Updates (userId : Uuid) (platform : Platform) (event : PlatformEvent deployment) : Prop :=
  ∃ meeting token password fullName email current,
    event = .request meeting token (.updateUserMe password fullName email) ∧
      getCurrentUser meeting token platform.users = .ok current ∧ current.user.id = userId

/-- Every account of a table is in another one with the same standing, and those that are
new there have no roles. -/
structure StandingKept (users users' : Users) : Prop where
  kept : ∀ row ∈ users.rows, ∃ row' ∈ users'.rows, SameStanding row row'
  unentitled : ∀ row' ∈ users'.rows,
    (∃ row ∈ users.rows, row.user.id = row'.user.id) ∨ row'.user.roles = []

theorem StandingKept.refl (users : Users) : StandingKept users users where
  kept row hrow := ⟨row, hrow, .refl row⟩
  unentitled row hrow := .inl ⟨row, hrow, rfl⟩

theorem StandingKept.trans {first second third : Users} (hids : (third.rows.map (·.user.id)).Nodup)
    (hfirst : StandingKept first second) (hsecond : StandingKept second third) :
    StandingKept first third where
  kept := by
    intro row hrow
    obtain ⟨row', hrow', hsame⟩ := hfirst.kept row hrow
    obtain ⟨row'', hrow'', hsame'⟩ := hsecond.kept row' hrow'
    exact ⟨row'', hrow'', hsame.trans hsame'⟩
  unentitled := by
    intro row'' hrow''
    rcases hsecond.unentitled row'' hrow'' with ⟨row', hrow', hid⟩ | hnone
    · rcases hfirst.unentitled row' hrow' with ⟨row, hrow, hid'⟩ | hnone
      · exact .inl ⟨row, hrow, hid'.trans hid⟩
      · -- the account has the roles it had when it was new
        obtain ⟨later, hlater, hsame⟩ := hsecond.kept row' hrow'
        have heq : later = row'' := Keyed.ext hids hlater hrow'' (hsame.id.trans hid)
        rw [heq] at hsame
        exact .inr (hsame.roles.trans hnone)
    · exact .inr hnone

/-- Who has a role had it before. -/
theorem StandingKept.origin (hids : (users'.rows.map (·.user.id)).Nodup)
    (hkept : StandingKept users users') {row' : StoredUser} (hrow' : row' ∈ users'.rows)
    (hroles : row'.user.roles ≠ []) : ∃ row ∈ users.rows, SameStanding row row' := by
  rcases hkept.unentitled row' hrow' with ⟨row, hrow, hid⟩ | hnone
  · obtain ⟨later, hlater, hsame⟩ := hkept.kept row hrow
    obtain rfl : later = row' := Keyed.ext hids hlater hrow' (hsame.id.trans hid)
    exact ⟨row, hrow, hsame⟩
  · exact absurd hnone hroles

/-! ## One event -/

theorem sameStanding_updatedRow (meeting : Meeting deployment) (current : StoredUser)
    (email : String) (password fullName : Option String) :
    SameStanding current (updatedRow meeting current email password fullName) :=
  ⟨rfl, rfl, rfl, rfl⟩

theorem users_wellFormed_serve (husers : platform.users.WellFormed)
    (event : PlatformEvent deployment) : (serve platform event).users.WellFormed := by
  have heffect := usersEffect_serve platform event
  generalize (serve platform event).users = users' at heffect ⊢
  cases heffect with
  | untouched => exact husers
  | created meeting token userIn hevent current hcurrent hadmin email hemail row hrow hadmits =>
      apply husers.insert hadmits
      rw [hrow]
      rfl
  | updated meeting token password fullName text hevent current hcurrent email hemail row hrow
      hadmits =>
      apply husers.replace (Users.admits_iff.mp hadmits).2
      rw [hrow, (sameStanding_updatedRow meeting current email password fullName).id]
      exact husers.fresh current (claims_of_currentUser hcurrent).1

theorem standingKept_serve (husers : platform.users.WellFormed)
    (event : PlatformEvent deployment) :
    StandingKept platform.users (serve platform event).users := by
  have heffect := usersEffect_serve platform event
  generalize (serve platform event).users = users' at heffect ⊢
  cases heffect with
  | untouched => exact .refl _
  | created meeting token userIn hevent current hcurrent hadmin email hemail row hrow hadmits =>
      constructor
      · intro other hother
        exact ⟨other, List.mem_append_left _ hother, .refl other⟩
      · intro other hother
        rcases List.mem_append.mp hother with hold | hnew
        · exact .inl ⟨other, hold, rfl⟩
        · rw [List.mem_singleton.mp hnew, hrow]
          exact .inr rfl
  | updated meeting token password fullName text hevent current hcurrent email hemail row hrow
      hadmits =>
      have hsame := sameStanding_updatedRow meeting current email password fullName
      rw [← hrow] at hsame
      have hmem := (claims_of_currentUser hcurrent).1
      constructor
      · intro other hother
        by_cases hid : other.user.id = row.user.id
        · have heq : other = current := Keyed.ext husers.ids hother hmem (hid.trans hsame.id)
          exact ⟨row, Keyed.mem_update.mpr (.inl ⟨other, hother, hid, rfl⟩), heq ▸ hsame⟩
        · exact ⟨other, Keyed.mem_update.mpr (.inr ⟨hother, hid⟩), .refl other⟩
      · intro other hother
        rcases Keyed.mem_update.mp hother with ⟨before, hbefore, hid, rfl⟩ | ⟨hold, -⟩
        · exact .inl ⟨before, hbefore, hid⟩
        · exact .inl ⟨other, hold, rfl⟩

/-- A row that its owner does not update stays. -/
theorem row_kept_serve {row : StoredUser} (hrow : row ∈ platform.users.rows)
    (hquiet : ¬Updates row.user.id platform event) :
    row ∈ (serve platform event).users.rows := by
  have heffect := usersEffect_serve platform event
  generalize (serve platform event).users = users' at heffect ⊢
  cases heffect with
  | untouched => exact hrow
  | created => exact List.mem_append_left _ hrow
  | updated meeting token password fullName text hevent current hcurrent email hemail row' hrow'
      hadmits =>
      refine Keyed.mem_update.mpr (.inr ⟨hrow, ?_⟩)
      intro hid
      rw [hrow'] at hid
      exact hquiet ⟨meeting, token, password, fullName, text, current, hevent, hcurrent, hid.symm⟩

/-! ## Runs -/

theorem users_wellFormed_serveAll (husers : platform.users.WellFormed)
    (events : List (PlatformEvent deployment)) : (serveAll platform events).users.WellFormed :=
  SerialRun.invariant (fun platform : Platform => platform.users.WellFormed)
    (fun _ event husers => users_wellFormed_serve husers event) events husers

theorem standingKept_serveAll (husers : platform.users.WellFormed)
    (events : List (PlatformEvent deployment)) :
    StandingKept platform.users (serveAll platform events).users := by
  induction events generalizing platform with
  | nil => exact .refl _
  | cons event rest ih =>
      have hnext := users_wellFormed_serve husers event
      exact (standingKept_serve husers event).trans (users_wellFormed_serveAll hnext rest).ids
        (ih hnext)

theorem row_kept_serveAll {row : StoredUser} (hrow : row ∈ platform.users.rows)
    {events : List (PlatformEvent deployment)}
    (hquiet : SerialRun.EachStep serve (fun platform event => ¬Updates row.user.id platform event)
      platform events) : row ∈ (serveAll platform events).users.rows :=
  SerialRun.invariant_of_eachStep (fun platform : Platform => row ∈ platform.users.rows)
    (fun _ _ hkept hevent => row_kept_serve hkept hevent) events hrow hquiet

/-- Whatever is served: no two accounts get an identifier, an email or a username in
common; every account stays, with its roles and its activity, and with its whole row
unless its owner updates it; and who has any role in the end had it from the beginning. -/
theorem authority_never_granted (husers : platform.users.WellFormed)
    (events : List (PlatformEvent deployment)) :
    (serveAll platform events).users.WellFormed ∧
      (∀ row ∈ platform.users.rows,
        (∃ row' ∈ (serveAll platform events).users.rows, SameStanding row row') ∧
          (SerialRun.EachStep serve
              (fun platform event => ¬Updates row.user.id platform event) platform events →
            row ∈ (serveAll platform events).users.rows)) ∧
      ∀ row' ∈ (serveAll platform events).users.rows, row'.user.roles ≠ [] →
        ∃ row ∈ platform.users.rows, SameStanding row row' := by
  have hafter := users_wellFormed_serveAll husers events
  have hkept := standingKept_serveAll husers events
  refine ⟨hafter, ?_, ?_⟩
  · intro row hrow
    exact ⟨hkept.kept row hrow, row_kept_serveAll hrow⟩
  · intro row' hrow' hroles
    exact hkept.origin hafter.ids hrow' hroles

namespace Sample

/-- A user calls himself an administrator. -/
def selfPromotion : List (PlatformEvent Security.Sample.plainDeployment) :=
  [.request Security.Sample.firstMeeting
    (createAccessToken Security.Sample.plainDeployment Security.Sample.firstMeeting.now 1)
    (.updateUserMe none (some "Admin") none)]

end Sample

theorem authority_never_granted_selfPromotion :
    ∃ row ∈ (serveAll ⟨Security.Sample.seeded, Database.empty⟩ Sample.selfPromotion).users.rows,
      SameStanding Security.Sample.standardUser row := by
  have hkept := authority_never_granted
    (show (Platform.mk Security.Sample.seeded Database.empty).users.WellFormed from
      Security.Sample.seeded_wellFormed) Sample.selfPromotion
  exact (hkept.2.1 Security.Sample.standardUser (by simp [Security.Sample.seeded])).1

end WorkflowPlatform
