import Mathlib.Algebra.Order.BigOperators.Group.List
import WorkflowPlatform.Cases.Forward
import WorkflowPlatform.Deciding.TaskList
import WorkflowPlatform.Foundation.Potential

/-! # Working off the open tasks

With forward definitions there is only so much to decide: every accepted decision
uses some of it up, and nothing but a new request adds to it. An administrator who
keeps deciding tasks from his list, in whatever order and with whatever outcomes,
therefore empties it.
-/

namespace WorkflowPlatform

open Python WorkflowEngine

variable {db db' : Database}

/-! ## What is outstanding -/

/-- What is left to do about one request. -/
def Database.owed (db : Database) (requestId : Uuid) : ℕ :=
  ((db.request? requestId).map fun request =>
    (caseOf db request).remaining (db.definition request.workflowId)).getD 0

/-- What is left to do about all requests: no more decisions can be accepted. -/
def Database.outstanding (db : Database) : ℕ :=
  ((db.workflowRequests.map (·.id)).map db.owed).sum

/-- All requests have forward definitions. -/
def AllForward (db : Database) : Prop :=
  ∀ request ∈ db.workflowRequests, (db.definition request.workflowId).forward = true

instance (db : Database) : Decidable (AllForward db) :=
  inferInstanceAs (Decidable (∀ request ∈ db.workflowRequests, _))

theorem owed_of_mem (hdb : WellFormed db) {request : WorkflowRequest}
    (hrequest : request ∈ db.workflowRequests) :
    db.owed request.id = (caseOf db request).remaining (db.definition request.workflowId) := by
  rw [Database.owed, hdb.request?_eq_some_iff.mpr ⟨hrequest, rfl⟩, Option.map_some,
    Option.getD_some]

def Call.isStart : Call → Bool
  | startWorkflow _ _ _ _ => true
  | _ => false

/-- The call is a decision that is accepted. -/
def Call.decides (db : Database) (call : Call) : Bool := call.decides?.isSome && call.accepted db

/-! ## What a call does to it -/

/-- Only a start adds a request. -/
theorem request_ids_perform (hdb : WellFormed db) {call : Call} (hstart : call.isStart = false) :
    (call.perform db).workflowRequests.map (·.id) = db.workflowRequests.map (·.id) := by
  have heffect := hdb.effect_perform call
  generalize call.perform db = db' at heffect ⊢
  cases heffect with
  | refused | defined => rfl
  | deleted env workflowId db' hdeleted => rw [workflowRequests_deleted hdb hdeleted]
  | started => cases hstart
  | decided _ _ _ _ _ _ _ _ _ _ _ _ _ hrouted =>
      cases hrouted with
      | moved => exact Keyed.map_key_update (RequestUpdate.on_id _) _
      | finished => exact Keyed.map_key_update (RequestUpdate.on_id _) _
  | scanned env =>
      obtain ⟨items, hscanned, -⟩ := scanned_eq_escalated hdb env
      rw [hscanned, (requests_escalated env db items).1]

/-- What is owed after a call follows from the case after it. -/
theorem owed_perform (hdb : WellFormed db) {request : WorkflowRequest}
    (hrequest : request ∈ db.workflowRequests) (call : Call) {after : Case}
    (hafter : (call.perform db).case? request.id = some after) :
    (call.perform db).owed request.id =
      after.remaining (db.definition request.workflowId) := by
  obtain ⟨row, hrow, hcarries⟩ := (continues_perform hdb call).requests request hrequest
  have hdb' := wellFormed_perform hdb call
  rw [← hcarries.id, case?_of_mem hdb' hrow, Option.some.injEq] at hafter
  rw [← hcarries.id, owed_of_mem hdb' hrow, hafter, hcarries.workflowId,
    definition_perform hdb hrequest]

/-- No call adds to what is owed about a request with a forward definition. -/
theorem owed_perform_le (hdb : WellFormed db) {request : WorkflowRequest}
    (hrequest : request ∈ db.workflowRequests)
    (hforward : (db.definition request.workflowId).forward = true) (call : Call) :
    (call.perform db).owed request.id ≤ db.owed request.id := by
  have hcase := case?_perform hdb hrequest call
  rw [case?_of_mem hdb hrequest] at hcase
  rw [owed_of_mem hdb hrequest]
  cases hruling : call.rulingOn request.id with
  | none =>
      rw [hruling, Option.map_none, Option.getD_none] at hcase
      exact (owed_perform hdb hrequest call hcase).le
  | some ruling =>
      rw [hruling, Option.map_some, Option.getD_some, Option.map_some] at hcase
      rw [owed_perform hdb hrequest call hcase, Case.rule]
      cases hrule : (caseOf db request).rule? (db.definition request.workflowId) ruling with
      | none => exact le_rfl
      | some after => exact (remaining_rule? hforward hrule).le

/-- An accepted decision uses some of it up. -/
theorem exists_owed_lt (hdb : WellFormed db) (hforward : AllForward db) {call : Call}
    (hdecides : call.decides db = true) :
    ∃ requestId ∈ db.workflowRequests.map (·.id),
      (call.perform db).owed requestId < db.owed requestId := by
  obtain ⟨hsome, haccepts⟩ := Bool.and_eq_true_iff.mp hdecides
  obtain ⟨requestId, user, hsubmits⟩ : ∃ requestId user, Submits requestId user call := by
    cases call with
    | processStep env requestId user outcome context =>
        exact ⟨requestId, user, .process env outcome context⟩
    | makeDecision env requestId user payload => exact ⟨requestId, user, .decide env payload⟩
    | createWorkflow | deleteWorkflow | startWorkflow | scanForBreaches => cases hsome
  rcases submits_cases hsubmits db with ⟨hrefused, -⟩ | ⟨-, outcome, context, -, hdecided⟩
  · rw [hrefused] at haccepts
    cases haccepts
  · obtain ⟨request, exec, status, haccepted, -⟩ := decided_iff.mp hdecided
    obtain ⟨hrequest, rfl⟩ := hdb.request?_eq_some_iff.mp haccepted.request_read
    obtain ⟨after, hafter, hrule⟩ := rule?_of_decided hdb hrequest hdecided
    refine ⟨request.id, List.mem_map_of_mem hrequest, ?_⟩
    rw [owed_perform hdb hrequest call hafter, owed_of_mem hdb hrequest]
    exact remaining_rule? (hforward request hrequest) hrule

/-- A call that starts nothing adds nothing to what is outstanding. -/
theorem outstanding_perform (hdb : WellFormed db) (hforward : AllForward db) {call : Call}
    (hstart : call.isStart = false) :
    (call.decides db).toNat + (call.perform db).outstanding ≤ db.outstanding := by
  have hle : ∀ requestId ∈ db.workflowRequests.map (·.id),
      (call.perform db).owed requestId ≤ db.owed requestId := by
    intro requestId hmem
    obtain ⟨request, hrequest, rfl⟩ := List.mem_map.mp hmem
    exact owed_perform_le hdb hrequest (hforward request hrequest) call
  rw [Database.outstanding, request_ids_perform hdb hstart, Database.outstanding]
  cases hdecides : call.decides db with
  | false =>
      rw [Bool.toNat_false, Nat.zero_add]
      exact List.sum_le_sum hle
  | true =>
      have hless := List.sum_lt_sum _ _ hle (exists_owed_lt hdb hforward hdecides)
      rw [Bool.toNat_true]
      omega

theorem allForward_perform (hdb : WellFormed db) (hforward : AllForward db) {call : Call}
    (hstart : call.isStart = false) : AllForward (call.perform db) := by
  intro row hrow
  -- no request is new, and none changes its definition
  have hid : row.id ∈ db.workflowRequests.map (·.id) := by
    rw [← request_ids_perform hdb hstart]
    exact List.mem_map_of_mem hrow
  obtain ⟨request, hrequest, hid⟩ := List.mem_map.mp hid
  obtain ⟨row', hrow', hcarries⟩ := (continues_perform hdb call).requests request hrequest
  have hsame : row = row' := Keyed.ext (wellFormed_perform hdb call).request_keys hrow hrow'
    (hid.symm.trans hcarries.id.symm)
  rw [hsame, hcarries.workflowId, definition_perform hdb hrequest]
  exact hforward request hrequest

/-- Unless requests are started, no more decisions are accepted than were outstanding. -/
theorem decisions_run_out (hreachable : Reachable db) (hforward : AllForward db)
    {calls : List Call} (hstarts : ∀ call ∈ calls, call.isStart = false) :
    SerialRun.occurrences Call.perform Call.decides db calls ≤ db.outstanding := by
  have hbound := SerialRun.occurrences_add_le
    (fun db => WellFormed db ∧ AllForward db) (fun call => call.isStart = false)
    (fun db call hdb hstart => ⟨wellFormed_perform hdb.1 call,
      allForward_perform hdb.1 hdb.2 hstart⟩)
    (fun db call hdb hstart => outstanding_perform hdb.1 hdb.2 hstart)
    ⟨hreachable.wellFormed, hforward⟩ hstarts
  exact (Nat.le_add_right _ _).trans hbound

/-- One request at the first of two reviews. -/
theorem decisions_run_out_opened :
    SerialRun.occurrences Call.perform Call.decides Sample.opened
      [Sample.approval, Sample.approval, Sample.approval] ≤ Sample.opened.outstanding :=
  decisions_run_out Sample.opened_reachable (by decide +kernel) (by decide)

/-! ## Deciding from the list -/

section Listed

variable {user : User} {order : RowOrder RequestStep} {now : DateTime}
  {casts : List Json → Bool}

/-- A listed task is the open execution of its request, and the user may decide it. -/
theorem active_of_listed (hdb : WellFormed db) {task : Endpoint.TaskView}
    (htask : task ∈ Endpoint.getMyTasks order db user) :
    ∃ request ∈ db.workflowRequests, request.id = task.requestId ∧
      ∃ decided exec, Active db request decided exec ∧ rbacError db user exec = none := by
  obtain ⟨exec, hexec, hview⟩ := List.mem_filterMap.mp htask
  obtain ⟨hmem, -, hopen⟩ := mem_pending.mp hexec
  obtain ⟨howner, -, -, stepDef, hstep, hshown⟩ := taskView?_eq_some hview
  obtain ⟨request, hrequest, hid, decided, hactive⟩ := active_of_undecided hdb hmem hopen
  exact ⟨request, hrequest, hid.trans howner.symm, decided, exec, hactive,
    (rbacError_eq_none_iff hstep).mpr hshown⟩

/-- The deadlines of all steps can be reckoned. -/
def Fits (now : DateTime) (db : Database) : Prop :=
  ∀ step ∈ db.workflowSteps, (now.addHours step.slaHours).isSome

/-- While nothing fails, whoever may decide a task can do so with any outcome, and any context
that can be stored. -/
theorem decided_of_active (hdb : WellFormed db) {request : WorkflowRequest}
    (hrequest : request ∈ db.workflowRequests) {decided : List RequestStep} {exec : RequestStep}
    (hactive : Active db request decided exec) (hpermitted : rbacError db user exec = none)
    (hfits : Fits now db) (outcome : StepStatus) {context : Option Dict}
    (hstores : storable casts context = true) :
    ∃ db', WorkflowEngine.decided ((Env.calm now).casting casts) db request.id user outcome.value
      context = some db' := by
  have houtcome : (StepStatus.ofValue? outcome.value).isSome := by
    rw [StepStatus.ofValue?_value, Option.isSome_some]
  obtain ⟨status, hstatus⟩ := exists_storedStatus exec user houtcome
    (show ((Env.calm now).casting casts).stores context = true from hstores)
  have haccepted : Accepted ((Env.calm now).casting casts) db request.id user outcome.value context
      request exec status := {
    request_read := hdb.request?_eq_some_iff.mpr ⟨hrequest, rfl⟩
    execution_open := WellFormed.openExecution_of_active hactive (Env.calm now).executionOrder
    permitted := hpermitted
    status_stored := hstatus
    audited := rfl
    committed := rfl }
  cases hnext : nextStepOf ((Env.calm now).casting casts) db request outcome.value context with
  | some nextStep =>
      obtain ⟨deadline, hdeadline⟩ :=
        Option.isSome_iff_exists.mp (hfits nextStep (nextStepOf_mem hnext))
      exact ⟨_, decided_iff.mpr
        ⟨request, exec, status, haccepted, .moved nextStep deadline hnext hdeadline⟩⟩
  | none =>
      exact ⟨_, decided_iff.mpr ⟨request, exec, status, haccepted,
        .finished hnext rfl (hactive.status_eq ▸ verdictOf_follows outcome.value)⟩⟩

/-- What a user decides next: a request, an outcome, and what goes with it, which can be
stored. -/
structure Choice (casts : List Json → Bool) where
  requestId : Uuid
  outcome : StepStatus
  context : Option Dict
  stored : storable casts context = true

/-- The decision of a choice. -/
def Choice.call (now : DateTime) (user : User) (choice : Choice casts) : Call :=
  .processStep ((Env.calm now).casting casts) choice.requestId user choice.outcome.value
    choice.context

/-- The choice is a task of the list, unless the list is empty. -/
def FromList (order : RowOrder RequestStep) (user : User) (choose : Database → Choice casts) :
    Prop :=
  ∀ db, Endpoint.getMyTasks order db user ≠ [] →
    ∃ task ∈ Endpoint.getMyTasks order db user, task.requestId = (choose db).requestId

variable {choose : Database → Choice casts}

/-- A choice from the list is accepted. -/
theorem decides_of_listed (hdb : WellFormed db) (hfits : Fits now db)
    (hchoose : FromList order user choose) (hlist : Endpoint.getMyTasks order db user ≠ []) :
    ((choose db).call now user).decides db = true := by
  obtain ⟨task, htask, hid⟩ := hchoose db hlist
  obtain ⟨request, hrequest, hrequestId, decided, exec, hactive, hpermitted⟩ :=
    active_of_listed hdb htask
  obtain ⟨db', hdecided⟩ := decided_of_active hdb hrequest hactive hpermitted hfits
    (choose db).outcome (choose db).stored
  rw [hrequestId, hid] at hdecided
  simp only [Call.decides, Choice.call, Call.decides?, Option.isSome_some, Bool.true_and,
    accepted_processStep, hdecided]

theorem fits_decision (hdb : WellFormed db) (hfits : Fits now db) (choice : Choice casts) :
    Fits now ((choice.call now user).perform db) := by
  have heffect := hdb.effect_perform (choice.call now user)
  rw [Choice.call] at heffect ⊢
  generalize Call.perform db _ = db' at heffect ⊢
  cases heffect with
  | refused => exact hfits
  | decided _ _ _ _ _ _ _ _ _ _ _ _ _ hrouted =>
      rw [Fits, (sameDefinitions_routed hrouted).workflowSteps]
      exact hfits

/-- Whoever keeps deciding tasks from his own list, in whatever order and with whatever
outcomes and comments that can be stored, empties it, with no more decisions than were
outstanding. -/
theorem task_list_worked_off (hreachable : Reachable db) (hforward : AllForward db)
    (hfits : Fits now db) (hchoose : FromList order user choose) :
    ∃ count ≤ db.outstanding, Endpoint.getMyTasks order
      ((fun db => ((choose db).call now user).perform db)^[count] db) user = [] := by
  apply Potential.exists_iterate_reaches (fun db => WellFormed db ∧ AllForward db ∧ Fits now db)
    (fun db => Endpoint.getMyTasks order db user = []) Database.outstanding
  · intro db hdb
    exact ⟨wellFormed_perform hdb.1 _, allForward_perform hdb.1 hdb.2.1 rfl,
      fits_decision hdb.1 hdb.2.2 (choose db)⟩
  · -- while the list is not empty, every decision takes one off what is outstanding
    intro db hdb hlist
    have hdecides := decides_of_listed hdb.1 hdb.2.2 hchoose hlist
    have hless := outstanding_perform hdb.1 hdb.2.1
      (show ((choose db).call now user).isStart = false from rfl)
    rw [hdecides, Bool.toNat_true] at hless
    omega
  · exact ⟨hreachable.wellFormed, hforward, hfits⟩

end Listed

namespace Sample

/-- The first task of the list is approved. -/
def approveNext (db : Database) : Choice fun _ => false :=
  ⟨((Endpoint.getMyTasks .stored db admin).head?.map (·.requestId)).getD 0, .approved, none, rfl⟩

theorem approveNext_fromList : FromList .stored admin approveNext := by
  intro db hlist
  cases htasks : Endpoint.getMyTasks .stored db admin with
  | nil => exact absurd htasks hlist
  | cons task rest => exact ⟨task, List.mem_cons_self, by simp [approveNext, htasks]⟩

end Sample

theorem task_list_worked_off_opened :
    ∃ count ≤ Sample.opened.outstanding, Endpoint.getMyTasks .stored
      ((fun db => ((Sample.approveNext db).call Sample.noon Sample.admin).perform db)^[count]
        Sample.opened) Sample.admin = [] :=
  task_list_worked_off Sample.opened_reachable (by decide +kernel)
    (by unfold Fits; decide +kernel) Sample.approveNext_fromList

end WorkflowPlatform
