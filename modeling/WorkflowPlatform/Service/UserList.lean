import WorkflowPlatform.Foundation.Projection
import WorkflowPlatform.Service.Sessions

/-! # The list of users

Responses are checked against their schema, and the schema asks for a full name. The
update of one's own account does not: an account whose owner empties its name is stored,
and the list of users is not answered any more as long as it would show that account.
-/

namespace WorkflowPlatform

open Python Security

variable {deployment : Deployment} {platform : Platform}

/-- What the schema asks of a row, apart from a full name that is not empty. -/
structure Presentable (deployment : Deployment) (row : StoredUser) : Prop where
  email : deployment.emailStr row.user.email = some row.user.email
  username : 3 ≤ row.username.length ∧ row.username.length ≤ 100
  fullName : row.fullName.length ≤ 255

/-- The owner of an account empties its full name. -/
def EmptiesName (userId : Uuid) (platform : Platform) (event : PlatformEvent deployment) : Prop :=
  ∃ meeting token password email current,
    event = .request meeting token (.updateUserMe password (some "") email) ∧
      getCurrentUser meeting token platform.users = .ok current ∧ current.user.id = userId

/-! ## One row -/

theorem ofRow?_isSome_iff {row : StoredUser} (hrow : Presentable deployment row) :
    (UserSchema.ofRow? deployment.emailStr row).isSome = true ↔ row.fullName ≠ "" := by
  have hlength : 1 ≤ row.fullName.length ↔ row.fullName ≠ "" := by
    rw [Nat.one_le_iff_ne_zero, ne_eq, String.length_eq_zero_iff]
  simp only [UserSchema.ofRow?, hrow.username, hrow.fullName, hrow.email, hlength, and_true,
    true_and]
  split <;> simp [*]

theorem mapM_isSome_iff {Row View : Type} {show? : Row → Option View} {rows : List Row} :
    (rows.mapM show?).isSome = true ↔ ∀ row ∈ rows, (show? row).isSome = true := by
  induction rows with
  | nil => simp
  | cons row rest ih =>
      rw [List.forall_mem_cons, ← ih, List.mapM_cons]
      cases show? row <;> cases rest.mapM show? <;> simp

/-! ## One event -/

theorem presentable_serve (hrows : ∀ row ∈ platform.users.rows, Presentable deployment row)
    (event : PlatformEvent deployment) :
    ∀ row ∈ (serve platform event).users.rows, Presentable deployment row := by
  have heffect := usersEffect_serve platform event
  generalize (serve platform event).users = users' at heffect ⊢
  cases heffect with
  | untouched => exact hrows
  | created meeting token userIn hevent current hcurrent hadmin email hemail row hrow hadmits =>
      intro other hother
      rcases List.mem_append.mp hother with hold | hnew
      · exact hrows other hold
      · rw [List.mem_singleton.mp hnew, hrow]
        exact ⟨deployment.emailStr_normal _ _ hemail, userIn.username_length,
          userIn.fullName_length.2⟩
  | updated meeting token password fullName text hevent current hcurrent email hemail row hrow
      hadmits =>
      intro other hother
      rcases Keyed.mem_update.mp hother with ⟨_, -, -, rfl⟩ | ⟨hold, -⟩
      · obtain ⟨text, hemail⟩ := hemail
        have hown := hrows current (claims_of_currentUser hcurrent).1
        refine ⟨?_, ?_, (Users.admits_iff.mp hadmits).1⟩
        · rw [hrow]
          exact deployment.emailStr_normal _ _ hemail
        · rw [hrow]
          exact hown.username
      · exact hrows other hold

/-- An account with an empty full name. -/
def Nameless (userId : Uuid) (platform : Platform) : Prop :=
  ∃ row ∈ platform.users.rows, row.user.id = userId ∧ row.fullName = ""

theorem nameless_serve {userId : Uuid} {event : PlatformEvent deployment}
    (hnameless : Nameless userId (serve platform event)) :
    Nameless userId platform ∨ EmptiesName userId platform event := by
  obtain ⟨row, hrow, hid, hempty⟩ := hnameless
  have heffect := usersEffect_serve platform event
  generalize (serve platform event).users = users' at heffect hrow
  cases heffect with
  | untouched => exact .inl ⟨row, hrow, hid, hempty⟩
  | created meeting token userIn hevent current hcurrent hadmin email hemail row' hrow' hadmits =>
      rcases List.mem_append.mp hrow with hold | hnew
      · exact .inl ⟨row, hold, hid, hempty⟩
      · rw [List.mem_singleton.mp hnew, hrow'] at hempty
        have hlength := userIn.fullName_length.1
        rw [show userIn.fullName = "" from hempty] at hlength
        exact absurd hlength (by decide)
  | updated meeting token password fullName text hevent current hcurrent email hemail row' hrow'
      hadmits =>
      rcases Keyed.mem_update.mp hrow with ⟨before, -, -, rfl⟩ | ⟨hold, -⟩
      · rw [hrow'] at hid hempty
        cases fullName with
        | none => exact .inl ⟨current, (claims_of_currentUser hcurrent).1, hid, hempty⟩
        | some name =>
            obtain rfl : name = "" := hempty
            exact .inr ⟨meeting, token, password, text, current, hevent, hcurrent, hid⟩
      · exact .inl ⟨row, hold, hid, hempty⟩

/-! ## Runs -/

/-- On a platform whose accounts can all be shown at first, the list of users is answered
to an administrator if and only if no account on the page has an empty full name, and an
account has one only after its owner emptied it. -/
theorem user_list_answers_iff (hrows : ∀ row ∈ platform.users.rows, Presentable deployment row)
    (hnamed : ∀ row ∈ platform.users.rows, row.fullName ≠ "")
    (events : List (PlatformEvent deployment)) (meeting : Meeting deployment) {current : StoredUser}
    (hadmin : RbacService.checkRole deployment.casing current.user "admin" = .ok ())
    (skip limit : ℕ) :
    let users := (serveAll platform events).users
    ((∃ views, readUsers meeting current skip limit users = .ok views) ↔
        ∀ row ∈ ((meeting.order.rows users.rows).drop skip).take limit, row.fullName ≠ "") ∧
      ∀ row ∈ users.rows, row.fullName = "" → ∃ before event rest,
        events = before ++ event :: rest ∧
          EmptiesName row.user.id (serveAll platform before) event := by
  intro users
  constructor
  · have hshown : ∀ row ∈ users.rows, Presentable deployment row :=
      SerialRun.invariant
        (fun platform : Platform => ∀ row ∈ platform.users.rows, Presentable deployment row)
        (fun _ event hrows => presentable_serve hrows event) events hrows
    have hpage : ((((meeting.order.rows users.rows).drop skip).take limit).mapM
        (UserSchema.ofRow? deployment.emailStr)).isSome = true ↔
          ∀ row ∈ ((meeting.order.rows users.rows).drop skip).take limit, row.fullName ≠ "" := by
      rw [mapM_isSome_iff]
      apply forall₂_congr
      intro row hrow
      apply ofRow?_isSome_iff
      apply hshown row
      exact meeting.order.mem_rows.mp (List.mem_of_mem_drop (List.mem_of_mem_take hrow))
    rw [← hpage, readUsers, hadmin, Option.isSome_iff_exists]
    dsimp only
    split
    · next views hviews => simp [hviews]
    · next hnone => simp [hnone]
  · intro row hrow hempty
    have hraised := @SerialRun.exists_raises _ _ serve (Nameless row.user.id) (fun _ => True)
      (EmptiesName row.user.id) (fun _ _ _ => trivial)
      (fun platform event _ => nameless_serve) platform trivial events ⟨row, hrow, rfl, hempty⟩
    rcases hraised with ⟨before, hbefore, -, hempty'⟩ | hraised
    · exact absurd hempty' (hnamed before hbefore)
    · exact hraised

namespace Sample

open Security.Sample

/-- The administrator gives up his name. -/
def renounced : List (PlatformEvent plainDeployment) :=
  [.request firstMeeting (some adminToken) (.updateUserMe none (some "") none)]

end Sample

theorem user_list_answers_iff_renounced :
    ¬∃ views, readUsers Security.Sample.firstMeeting Security.Sample.defaultAdmin 0 100
      (serveAll Sample.start Sample.renounced).users = .ok views := by
  have hrows : ∀ row ∈ Sample.start.users.rows,
      Presentable Security.Sample.plainDeployment row ∧ row.fullName ≠ "" := by
    intro row hrow
    simp only [Sample.start, Security.Sample.seeded, List.mem_cons, List.not_mem_nil,
      or_false] at hrow
    rcases hrow with rfl | rfl
    · exact ⟨⟨rfl, by decide, by decide⟩, by decide⟩
    · exact ⟨⟨rfl, by decide, by decide⟩, by decide⟩
  rw [(user_list_answers_iff (fun row hrow => (hrows row hrow).1)
    (fun row hrow => (hrows row hrow).2) Sample.renounced Security.Sample.firstMeeting
    (show RbacService.checkRole Security.Sample.plainDeployment.casing
      Security.Sample.defaultAdmin.user "admin" = .ok () by decide) 0 100).1]
  intro hnamed
  have hserved : (serveAll Sample.start Sample.renounced).users.rows =
      [{ Security.Sample.defaultAdmin with fullName := "" }, Security.Sample.standardUser] := by
    have hadmitted := @serve_admitted _ Sample.start _ _ (.updateUserMe none (some "") none) _
      Security.Sample.adminToken_accepted
    simp only [serveAll, Sample.renounced, SerialRun.after_cons, SerialRun.after_nil, hadmitted]
    rfl
  rw [hserved] at hnamed
  exact hnamed { Security.Sample.defaultAdmin with fullName := "" } List.mem_cons_self rfl

end WorkflowPlatform
