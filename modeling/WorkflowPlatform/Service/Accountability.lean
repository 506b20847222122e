import WorkflowPlatform.Cases.Refinement
import WorkflowPlatform.Service.Sessions

/-! # Accountability

What the tables of the engine say about who did what points to accounts of the platform,
and to accounts that were and still are entitled to it: whoever decided an execution may
decide its step, and whoever stored a definition is an administrator.
-/

namespace WorkflowPlatform

open Python Security WorkflowEngine

variable {users users' : Users} {db db' : Database} {casing : Lowering}

/-- Some account has the identifier. -/
def Security.Users.Has (users : Users) (userId : Uuid) : Prop :=
  ∃ row ∈ users.rows, row.user.id = userId

/-- Whoever did something is an account, and entitled to it. -/
structure Accountable (casing : Lowering) (users : Users) (db : Database) : Prop where
  decided : ∀ exec ∈ db.requestSteps, exec.completedAt.isSome → ∃ row ∈ users.rows,
    exec.assignedTo = some row.user.id ∧ rbacError db row.user exec = none
  defined : ∀ workflow ∈ db.workflows, ∃ row ∈ users.rows,
    workflow.createdBy = some row.user.id ∧
      RbacService.checkRole casing row.user "admin" = .ok ()
  requested : ∀ request ∈ db.workflowRequests, ∃ userId, request.requesterId = some userId ∧
    users.Has userId
  changed : ∀ entry ∈ db.requestStateHistory, ∃ userId, entry.changedBy = some userId ∧
    users.Has userId
  recorded : ∀ entry ∈ db.auditLogs, ∀ userId ∈ entry.actorId, users.Has userId

theorem accountable_empty (casing : Lowering) (users : Users) :
    Accountable casing users Database.empty where
  decided _ hexec := absurd hexec List.not_mem_nil
  defined _ hworkflow := absurd hworkflow List.not_mem_nil
  requested _ hrequest := absurd hrequest List.not_mem_nil
  changed _ hentry := absurd hentry List.not_mem_nil
  recorded _ hentry := absurd hentry List.not_mem_nil

/-! ## Other users -/

/-- The access check looks at the roles alone. -/
theorem rbacError_congr {user user' : User} (hroles : user'.roles = user.roles)
    {exec exec' : RequestStep} (hstep : db'.step? exec'.stepId = db.step? exec.stepId) :
    rbacError db' user' exec' = rbacError db user exec := by
  obtain ⟨id, email, isActive, roles⟩ := user
  obtain ⟨id', email', isActive', roles'⟩ := user'
  obtain rfl : roles' = roles := hroles
  rw [rbacError, rbacError, hstep]
  rfl

theorem checkRole_congr {user user' : User} (hroles : user'.roles = user.roles)
    (requiredRole : String) :
    RbacService.checkRole casing user' requiredRole =
      RbacService.checkRole casing user requiredRole := by
  have hrole : RbacService.hasRole casing user' = RbacService.hasRole casing user := by
    funext roleName
    simp only [RbacService.hasRole, hroles]
  simp only [RbacService.checkRole, hrole]

theorem Security.Users.Has.kept {userId : Uuid} (hhas : users.Has userId)
    (hkept : ∀ row ∈ users.rows, ∃ row' ∈ users'.rows, SameStanding row row') :
    users'.Has userId := by
  obtain ⟨row, hrow, rfl⟩ := hhas
  obtain ⟨row', hrow', hsame⟩ := hkept row hrow
  exact ⟨row', hrow', hsame.id⟩

/-- Changes of the accounts leave everything accounted for. -/
theorem Accountable.kept (haccountable : Accountable casing users db)
    (hkept : ∀ row ∈ users.rows, ∃ row' ∈ users'.rows, SameStanding row row') :
    Accountable casing users' db where
  decided := by
    intro exec hexec hcompleted
    obtain ⟨row, hrow, hassigned, hpermitted⟩ := haccountable.decided exec hexec hcompleted
    obtain ⟨row', hrow', hsame⟩ := hkept row hrow
    exact ⟨row', hrow', hsame.id.symm ▸ hassigned,
      (rbacError_congr hsame.roles rfl).trans hpermitted⟩
  defined := by
    intro workflow hworkflow
    obtain ⟨row, hrow, hcreated, hadmin⟩ := haccountable.defined workflow hworkflow
    obtain ⟨row', hrow', hsame⟩ := hkept row hrow
    exact ⟨row', hrow', hsame.id.symm ▸ hcreated, (checkRole_congr hsame.roles _).trans hadmin⟩
  requested := by
    intro request hrequest
    obtain ⟨userId, hrequester, hhas⟩ := haccountable.requested request hrequest
    exact ⟨userId, hrequester, hhas.kept hkept⟩
  changed := by
    intro entry hentry
    obtain ⟨userId, hchanged, hhas⟩ := haccountable.changed entry hentry
    exact ⟨userId, hchanged, hhas.kept hkept⟩
  recorded entry hentry userId hactor :=
    (haccountable.recorded entry hentry userId hactor).kept hkept

/-! ## One call -/

/-- The step of an execution stays what it is. -/
theorem step?_perform (hdb : WellFormed db) {exec : RequestStep} (hexec : exec ∈ db.requestSteps)
    (call : Call) : (call.perform db).step? exec.stepId = db.step? exec.stepId := by
  obtain ⟨request, hrequest, hid⟩ := hdb.execution_request exec hexec
  have hstep := hdb.hasStep_of_execution hrequest (WellFormed.mem_executions.mpr ⟨hexec, hid.symm⟩)
  have hdb' := wellFormed_perform hdb call
  have hcontinues := continues_perform hdb call
  obtain ⟨exec', hexec', hfollows⟩ := hcontinues.executions exec hexec
  obtain ⟨request', hrequest', hcarries⟩ := hcontinues.requests request hrequest
  have hstep' := hdb'.hasStep_of_execution hrequest' (WellFormed.mem_executions.mpr ⟨hexec',
    hfollows.requestId.trans (hid.symm.trans hcarries.id.symm)⟩)
  rw [hcarries.workflowId, hfollows.stepId] at hstep'
  rw [← step?_definition hdb'.toWellDefined hstep', definition_perform hdb hrequest,
    step?_definition hdb.toWellDefined hstep]

/-- Where a decided execution comes from: it was decided before, or the call of a user who
may decide it decides it. -/
inductive Decides (db : Database) (call : Call) (exec : RequestStep) : Prop
  | before (earlier : RequestStep) (hearlier : earlier ∈ db.requestSteps)
      (hcompleted : earlier.completedAt.isSome) (hstep : earlier.stepId = exec.stepId)
      (hassigned : earlier.assignedTo = exec.assignedTo)
  | now (user : User) (requestId : Uuid) (hsubmits : Submits requestId user call)
      (open' : RequestStep) (hopen : open' ∈ db.requestSteps) (hstep : open'.stepId = exec.stepId)
      (hassigned : exec.assignedTo = some user.id) (hpermitted : rbacError db user open' = none)

theorem decides_perform (hdb : WellFormed db) (call : Call) :
    ∀ exec ∈ (call.perform db).requestSteps, exec.completedAt.isSome → Decides db call exec := by
  have heffect := hdb.effect_perform call
  generalize call.perform db = db' at heffect ⊢
  cases heffect with
  | refused => exact fun exec hexec hcompleted => .before exec hexec hcompleted rfl rfl
  | defined => exact fun exec hexec hcompleted => .before exec hexec hcompleted rfl rfl
  | deleted env workflowId db' hdeleted =>
      obtain ⟨-, -, rfl⟩ := Database.deleteWorkflow?_eq_some hdeleted
      exact fun exec hexec hcompleted => .before exec hexec hcompleted rfl rfl
  | started =>
      intro exec hexec hcompleted
      rcases List.mem_append.mp hexec with hold | hnew
      · exact .before exec hold hcompleted rfl rfl
      · rw [List.mem_singleton.mp hnew] at hcompleted
        cases hcompleted
  | decided _ requestId user outcome context request current status db' hsubmits _ _ haccepted
      hrouted =>
      obtain ⟨hcurrent, -⟩ :=
        hdb.active_of_openExecution haccepted.request_read haccepted.execution_open
      have hclosed : ∀ exec ∈ closedSteps call.env db current user outcome context status,
          exec.completedAt.isSome → Decides db call exec := by
        intro exec hexec hcompleted
        rcases Keyed.mem_update.mp hexec with ⟨before, hbefore, hid, rfl⟩ | ⟨hold, -⟩
        · have heq := Keyed.ext hdb.execution_keys hbefore hcurrent hid
          exact .now user requestId hsubmits current hcurrent (by rw [← heq]; rfl) rfl
            haccepted.permitted
        · exact .before exec hold hcompleted rfl rfl
      cases hrouted with
      | finished => exact hclosed
      | moved =>
          intro exec hexec hcompleted
          rcases List.mem_append.mp hexec with hold | hnew
          · exact hclosed exec hold hcompleted
          · rw [List.mem_singleton.mp hnew] at hcompleted
            cases hcompleted
  | scanned env =>
      obtain ⟨items, hscanned, -⟩ := scanned_eq_escalated hdb env
      rw [hscanned, requestSteps_escalated]
      intro exec hexec hcompleted
      obtain ⟨before, hbefore, rfl⟩ := List.mem_map.mp hexec
      split at hcompleted <;> split <;> exact .before before hbefore hcompleted rfl rfl

/-- If the deciding user has an account, what a call leaves was decided by accounts. -/
theorem decided_perform (haccountable : Accountable casing users db) (hdb : WellFormed db)
    {call : Call} (hby : ∀ user requestId, Submits requestId user call →
      ∃ row ∈ users.rows, row.user = user) :
    ∀ exec ∈ (call.perform db).requestSteps, exec.completedAt.isSome →
      ∃ row ∈ users.rows, exec.assignedTo = some row.user.id ∧
        rbacError (call.perform db) row.user exec = none := by
  intro exec hexec hcompleted
  cases decides_perform hdb call exec hexec hcompleted with
  | before earlier hearlier hcompleted hstep hassigned =>
      obtain ⟨row, hrow, hdecider, hpermitted⟩ := haccountable.decided earlier hearlier hcompleted
      refine ⟨row, hrow, hassigned ▸ hdecider, (rbacError_congr rfl ?_).trans hpermitted⟩
      rw [← hstep]
      exact step?_perform hdb hearlier call
  | now user requestId hsubmits current hcurrent hstep hassigned hpermitted =>
      obtain ⟨row, hrow, rfl⟩ := hby user requestId hsubmits
      refine ⟨row, hrow, hassigned, (rbacError_congr rfl ?_).trans hpermitted⟩
      rw [← hstep]
      exact step?_perform hdb hcurrent call

/-- New rows about what a user did. -/
theorem changed_append (haccountable : Accountable casing users db) {userId : Uuid}
    (hhas : users.Has userId) {added : List RequestStateHistory}
    (hadded : ∀ entry ∈ added, entry.changedBy = some userId) :
    ∀ entry ∈ db.requestStateHistory ++ added, ∃ userId, entry.changedBy = some userId ∧
      users.Has userId := by
  intro entry hentry
  rcases List.mem_append.mp hentry with hold | hnew
  · exact haccountable.changed entry hold
  · exact ⟨userId, hadded entry hnew, hhas⟩

theorem recorded_append (haccountable : Accountable casing users db) {userId : Uuid}
    (hhas : users.Has userId) {added : List AuditLog}
    (hadded : ∀ entry ∈ added, entry.actorId = some userId) :
    ∀ entry ∈ db.auditLogs ++ added, ∀ userId ∈ entry.actorId, users.Has userId := by
  intro entry hentry actorId hactor
  rcases List.mem_append.mp hentry with hold | hnew
  · exact haccountable.recorded entry hold actorId hactor
  · rw [hadded entry hnew] at hactor
    exact Option.some.inj hactor ▸ hhas

theorem requested_update (haccountable : Accountable casing users db) (requestId : Uuid)
    (update : RequestUpdate) :
    ∀ request ∈ (db.updateRequest requestId update).workflowRequests,
      ∃ userId, request.requesterId = some userId ∧ users.Has userId := by
  intro request hrequest
  rcases Keyed.mem_update.mp hrequest with ⟨before, hbefore, -, rfl⟩ | ⟨hold, -⟩
  · exact haccountable.requested before hbefore
  · exact haccountable.requested request hold

/-- What a call for a user leaves is accounted for. -/
theorem Accountable.perform (haccountable : Accountable casing users db) (hdb : WellFormed db)
    {row : StoredUser} (hrow : row ∈ users.rows) {call : Call} (hby : call.By row.user)
    (hadmin : call.NeedsAdmin → RbacService.checkRole casing row.user "admin" = .ok ()) :
    Accountable casing users (call.perform db) := by
  have hdecided : ∀ exec ∈ (call.perform db).requestSteps, _ :=
    decided_perform haccountable hdb (by
      intro user requestId hsubmits
      refine ⟨row, hrow, ?_⟩
      cases hsubmits <;> exact hby.symm)
  have hmine : users.Has row.user.id := ⟨row, hrow, rfl⟩
  have heffect := hdb.effect_perform call
  generalize call.perform db = db' at heffect hdecided ⊢
  cases heffect with
  | refused => exact haccountable
  | defined env payload creatorId =>
      refine { haccountable with decided := hdecided, defined := ?_ }
      intro workflow hworkflow
      rcases List.mem_append.mp hworkflow with hold | hnew
      · exact haccountable.defined workflow hold
      · obtain rfl : creatorId = row.user.id := hby
        rw [List.mem_singleton.mp hnew]
        exact ⟨row, hrow, rfl, hadmin trivial⟩
  | deleted env workflowId db' hdeleted =>
      have hrequests := workflowRequests_deleted hdb hdeleted
      obtain ⟨-, -, rfl⟩ := Database.deleteWorkflow?_eq_some hdeleted
      refine { haccountable with decided := hdecided, defined := ?_, requested := ?_ }
      · intro workflow hworkflow
        exact haccountable.defined workflow (List.mem_of_mem_filter hworkflow)
      · rw [hrequests]
        exact haccountable.requested
  | started env workflowId requesterId data workflow first deadline =>
      obtain rfl : requesterId = row.user.id := hby
      refine ⟨hdecided, haccountable.defined, ?_, ?_, ?_⟩
      · intro request hrequest
        rcases List.mem_append.mp hrequest with hold | hnew
        · exact haccountable.requested request hold
        · rw [List.mem_singleton.mp hnew]
          exact ⟨row.user.id, rfl, hmine⟩
      · exact changed_append haccountable hmine (by simp [historyRow])
      · exact recorded_append haccountable hmine (by simp [requestAudit])
  | decided _ requestId user outcome context request current status db' hsubmits _ _ _ hrouted =>
      obtain rfl : user = row.user := by cases hsubmits <;> exact hby
      cases hrouted with
      | moved =>
          exact ⟨hdecided, haccountable.defined, requested_update haccountable _ _,
            haccountable.changed, recorded_append haccountable hmine (by simp [stepAudit])⟩
      | finished =>
          exact ⟨hdecided, haccountable.defined, requested_update haccountable _ _,
            changed_append haccountable hmine (by simp [historyRow]),
            recorded_append haccountable hmine (by simp [stepAudit, requestAudit])⟩
  | scanned env => exact hby.elim

/-- What a scan leaves of who did what: the rows there were, and entries without an actor. -/
structure Unattributed (users : Users) (db db' : Database) : Prop where
  workflows : db'.workflows = db.workflows
  workflowRequests : db'.workflowRequests = db.workflowRequests
  requestStateHistory : db'.requestStateHistory = db.requestStateHistory
  recorded : ∀ entry ∈ db'.auditLogs, ∀ userId ∈ entry.actorId, users.Has userId

/-- A scan decides nothing, and its entries name nobody. -/
theorem Accountable.scanned (haccountable : Accountable casing users db) (hdb : WellFormed db)
    (env : Env) : Accountable casing users ((Call.scanForBreaches env).perform db) := by
  have hdecided : ∀ exec ∈ ((Call.scanForBreaches env).perform db).requestSteps, _ :=
    decided_perform haccountable hdb (fun _ _ hsubmits => by cases hsubmits)
  rw [perform_scanForBreaches] at hdecided ⊢
  obtain ⟨items, hscanned, -⟩ := scanned_eq_escalated hdb env
  rw [hscanned] at hdecided ⊢
  have hkept : ∀ db', ∀ item ∈ items, Unattributed users db db' →
      Unattributed users db (SLAMonitor.escalateOne env db' item) := by
    intro db' item _ hkept
    refine ⟨hkept.workflows, hkept.workflowRequests, hkept.requestStateHistory, ?_⟩
    intro entry hentry userId hactor
    rcases List.mem_append.mp hentry with hold | hnew
    · exact hkept.recorded entry hold userId hactor
    · obtain ⟨deadline, -, rfl⟩ := Option.map_eq_some_iff.mp (Option.mem_toList.mp hnew)
      cases hactor
  have hsame := SLAMonitor.escalated_induction (Unattributed users db) hkept
    ⟨rfl, rfl, rfl, haccountable.recorded⟩
  exact ⟨hdecided, hsame.workflows ▸ haccountable.defined,
    hsame.workflowRequests ▸ haccountable.requested,
    hsame.requestStateHistory ▸ haccountable.changed, hsame.recorded⟩

/-! ## Events -/

variable {deployment : Deployment} {platform : Platform}

theorem accountable_serve (husers : platform.users.WellFormed) (hdb : WellFormed platform.db)
    (haccountable : Accountable deployment.casing platform.users platform.db)
    (event : PlatformEvent deployment) :
    Accountable deployment.casing (serve platform event).users (serve platform event).db := by
  -- the engine serves the users there were before the event
  apply Accountable.kept _ (standingKept_serve husers event).kept
  have heffect := engineEffect_serve platform event
  generalize (serve platform event).db = db' at heffect ⊢
  cases heffect with
  | untouched => exact haccountable
  | scanned env => exact haccountable.scanned hdb env
  | called _ _ _ _ current hcurrent call hby hadmin =>
      exact haccountable.perform hdb (claims_of_currentUser hcurrent).1 hby hadmin

/-- The engine of a served platform is in a reachable state. -/
theorem reachable_serve (hreachable : Reachable platform.db) (event : PlatformEvent deployment) :
    Reachable (serve platform event).db := by
  have heffect := engineEffect_serve platform event
  generalize (serve platform event).db = db' at heffect ⊢
  cases heffect with
  | untouched => exact hreachable
  | scanned env => exact hreachable.runCalls [.scanForBreaches env]
  | called _ _ _ _ _ _ call => exact hreachable.runCalls [call]

/-- Whatever a platform that starts without data serves: its engine is in a reachable
state, whoever decided an execution is an account that still may decide its step, whoever
stored a definition is an administrator, and everyone else that a request, its history or
the ledger names is an account. -/
theorem work_is_accounted_for (husers : platform.users.WellFormed)
    (hempty : platform.db = Database.empty) (events : List (PlatformEvent deployment)) :
    Reachable (serveAll platform events).db ∧
      Accountable deployment.casing (serveAll platform events).users
        (serveAll platform events).db := by
  have hstart : platform.users.WellFormed ∧ Reachable platform.db ∧
      Accountable deployment.casing platform.users platform.db := by
    rw [hempty]
    exact ⟨husers, ⟨[], rfl⟩, accountable_empty _ _⟩
  refine (SerialRun.invariant (fun platform : Platform => platform.users.WellFormed ∧
    Reachable platform.db ∧ Accountable deployment.casing platform.users platform.db) ?_ events
    hstart).2
  intro platform event hkept
  obtain ⟨husers, hreachable, haccountable⟩ := hkept
  exact ⟨users_wellFormed_serve husers event, reachable_serve hreachable event,
    accountable_serve husers hreachable.wellFormed haccountable event⟩

namespace Sample

open Security.Sample

/-- The administrator stores a definition, starts a request and approves its first review. -/
def adminWorks : List (PlatformEvent plainDeployment) :=
  [.request firstMeeting (some adminToken) (.createWorkflow (.calm noon) approvals),
    .request firstMeeting (some adminToken) (.startWorkflow (.calm noon) 0 []),
    .request firstMeeting (some adminToken) (.processStep (.calm noon) 5 "APPROVED" none)]

theorem adminWorks_served :
    serveAll start adminWorks = ⟨seeded, runCalls Database.empty
      [.createWorkflow (.calm noon) approvals 0, .startWorkflow (.calm noon) 0 0 [],
        .processStep (.calm noon) 5 defaultAdmin.user "APPROVED" none]⟩ := by
  have hserved : ∀ db operation,
      serve ⟨seeded, db⟩ (.request firstMeeting (some adminToken) operation) =
        ⟨operation.usersAfter firstMeeting defaultAdmin seeded,
          operation.dbAfter plainDeployment.casing defaultAdmin.user db⟩ :=
    fun db operation => serve_admitted adminToken_accepted
  have hadmin :
      RbacService.checkRole plainDeployment.casing defaultAdmin.user "admin" = .ok () := by
    decide
  simp only [serveAll, adminWorks, start, SerialRun.after_cons, SerialRun.after_nil, hserved,
    Operation.usersAfter, Operation.reply?, Operation.dbAfter, Operation.call?,
    Operation.adminOnly, hadmin]
  rfl

end Sample

theorem work_is_accounted_for_adminWorks :
    ∃ exec ∈ (serveAll Sample.start Sample.adminWorks).db.requestSteps,
      exec.completedAt.isSome = true ∧
        ∃ row ∈ (serveAll Sample.start Sample.adminWorks).users.rows,
          exec.assignedTo = some row.user.id := by
  obtain ⟨exec, hexec, hcompleted⟩ :
      ∃ exec ∈ (serveAll Sample.start Sample.adminWorks).db.requestSteps,
        exec.completedAt.isSome = true := by
    rw [Sample.adminWorks_served]
    decide +kernel
  obtain ⟨-, haccountable⟩ :=
    @work_is_accounted_for _ Sample.start Security.Sample.seeded_wellFormed rfl Sample.adminWorks
  obtain ⟨row, hrow, hassigned, -⟩ := haccountable.decided exec hexec hcompleted
  exact ⟨exec, hexec, hcompleted, row, hrow, hassigned⟩

end WorkflowPlatform
