import WorkflowPlatform.Lifecycle.Reachable

/-! # What later states keep

Rows are not taken back. A later state has every request and every execution of
an earlier one; a decided execution keeps what it records, a mark stays, and a
completed request does not change at all.
-/

namespace WorkflowPlatform

open Python WorkflowEngine SLAMonitor

/-- A later row of an execution. -/
structure Follows (exec exec' : RequestStep) : Prop where
  id : exec'.id = exec.id
  requestId : exec'.requestId = exec.requestId
  stepId : exec'.stepId = exec.stepId
  startedAt : exec'.startedAt = exec.startedAt
  deadline : exec'.deadline = exec.deadline
  decided : exec.completedAt.isSome → SameRecord exec exec'
  marked : exec.isSlaBreached = true → exec'.isSlaBreached = true

/-- A later row of a request. -/
structure Carries (request request' : WorkflowRequest) : Prop where
  id : request'.id = request.id
  workflowId : request'.workflowId = request.workflowId
  requesterId : request'.requesterId = request.requesterId
  createdAt : request'.createdAt = request.createdAt
  requestData : request'.requestData = request.requestData
  completed : request.status = .completed → request' = request

/-- A later state. -/
structure Continues (db db' : Database) : Prop where
  executions : ∀ exec ∈ db.requestSteps, ∃ exec' ∈ db'.requestSteps, Follows exec exec'
  requests : ∀ request ∈ db.workflowRequests,
    ∃ request' ∈ db'.workflowRequests, Carries request request'

theorem Follows.refl (exec : RequestStep) : Follows exec exec :=
  ⟨rfl, rfl, rfl, rfl, rfl, fun _ => .refl exec, fun hmarked => hmarked⟩

theorem Carries.refl (request : WorkflowRequest) : Carries request request :=
  ⟨rfl, rfl, rfl, rfl, rfl, fun _ => rfl⟩

theorem Follows.trans {first second third : RequestStep} (hfirst : Follows first second)
    (hsecond : Follows second third) : Follows first third where
  id := hsecond.id.trans hfirst.id
  requestId := hsecond.requestId.trans hfirst.requestId
  stepId := hsecond.stepId.trans hfirst.stepId
  startedAt := hsecond.startedAt.trans hfirst.startedAt
  deadline := hsecond.deadline.trans hfirst.deadline
  decided hclosed := by
    have hkept := hfirst.decided hclosed
    have hlater := hsecond.decided (hkept.completedAt.symm ▸ hclosed)
    exact ⟨hlater.stepId.trans hkept.stepId, hlater.status.trans hkept.status,
      hlater.decisionData.trans hkept.decisionData, hlater.completedAt.trans hkept.completedAt⟩
  marked hmarked := hsecond.marked (hfirst.marked hmarked)

theorem Carries.trans {first second third : WorkflowRequest} (hfirst : Carries first second)
    (hsecond : Carries second third) : Carries first third where
  id := hsecond.id.trans hfirst.id
  workflowId := hsecond.workflowId.trans hfirst.workflowId
  requesterId := hsecond.requesterId.trans hfirst.requesterId
  createdAt := hsecond.createdAt.trans hfirst.createdAt
  requestData := hsecond.requestData.trans hfirst.requestData
  completed hcompleted := by
    have hkept := hfirst.completed hcompleted
    exact (hsecond.completed (hkept.symm ▸ hcompleted)).trans hkept

namespace Continues

theorem refl (db : Database) : Continues db db :=
  ⟨fun exec hexec => ⟨exec, hexec, .refl exec⟩,
    fun request hrequest => ⟨request, hrequest, .refl request⟩⟩

theorem trans {first second third : Database} (hfirst : Continues first second)
    (hsecond : Continues second third) : Continues first third where
  executions exec hexec := by
    obtain ⟨middle, hmiddle, hfollows⟩ := hfirst.executions exec hexec
    obtain ⟨last, hlast, hfollows'⟩ := hsecond.executions middle hmiddle
    exact ⟨last, hlast, hfollows.trans hfollows'⟩
  requests request hrequest := by
    obtain ⟨middle, hmiddle, hcarries⟩ := hfirst.requests request hrequest
    obtain ⟨last, hlast, hcarries'⟩ := hsecond.requests middle hmiddle
    exact ⟨last, hlast, hcarries.trans hcarries'⟩

end Continues

/-! ## One call -/

variable {db db' : Database}

theorem continues_routed (hdb : WellFormed db) {env : Env} {requestId : Uuid} {user : User}
    {outcome : String} {context : Option Dict} {request : WorkflowRequest} {exec : RequestStep}
    {status : Option StepStatus}
    (haccepted : Accepted env db requestId user outcome context request exec status)
    (hrouted : Routed env db user outcome context request exec status db') : Continues db db' := by
  obtain ⟨hstored, -⟩ := hdb.request?_eq_some_iff.mp haccepted.request_read
  obtain ⟨hexec, -, decided, hactive⟩ :=
    hdb.active_of_openExecution haccepted.request_read haccepted.execution_open
  have hexecutions : ∀ row ∈ db.requestSteps,
      ∃ row' ∈ closedSteps env db exec user outcome context status, Follows row row' := by
    intro row hrow
    by_cases hid : row.id = exec.id
    · refine ⟨_, Keyed.mem_update.mpr (.inl ⟨row, hrow, hid, rfl⟩), rfl, rfl, rfl, rfl, rfl, ?_, id⟩
      rw [Keyed.ext hdb.execution_keys hrow hexec hid, hactive.untouched.completedAt_none]
      intro hclosed
      cases hclosed
    · exact ⟨row, Keyed.mem_update.mpr (.inr ⟨hrow, hid⟩), .refl row⟩
  have hrequests : ∀ (update : RequestUpdate), ∀ row ∈ db.workflowRequests,
      ∃ row' ∈ (db.updateRequest request.id update).workflowRequests, Carries row row' := by
    intro update row hrow
    by_cases hid : row.id = request.id
    · refine ⟨_, Keyed.mem_update.mpr (.inl ⟨row, hrow, hid, rfl⟩), rfl, rfl, rfl, rfl, rfl, ?_⟩
      rw [Keyed.ext hdb.request_keys hrow hstored hid, hactive.status_eq]
      intro hcompleted
      cases hcompleted
    · exact ⟨row, Keyed.mem_update.mpr (.inr ⟨hrow, hid⟩), .refl row⟩
  cases hrouted with
  | moved nextStep deadline hnext hdeadline =>
      refine ⟨fun row hrow => ?_, hrequests _⟩
      obtain ⟨row', hrow', hfollows⟩ := hexecutions row hrow
      exact ⟨row', List.mem_append_left _ hrow', hfollows⟩
  | finished hnext haudited hvalid => exact ⟨hexecutions, hrequests _⟩

theorem continues_escalateOne (env : Env) (db : Database) (item : Positioned) :
    Continues db (escalateOne env db item) := by
  refine ⟨fun row hrow => ?_, fun request hrequest => ⟨request, hrequest, .refl request⟩⟩
  by_cases hid : row.id = item.2.id
  · exact ⟨_, Keyed.mem_update.mpr (.inl ⟨row, hrow, hid, rfl⟩), rfl, rfl, rfl, rfl, rfl,
      fun _ => ⟨rfl, rfl, rfl, rfl⟩, fun _ => rfl⟩
  · exact ⟨row, Keyed.mem_update.mpr (.inr ⟨hrow, hid⟩), .refl row⟩

theorem continues_scanned (env : Env) (db : Database) : Continues db (scanned env db) := by
  unfold scanned
  split
  · exact .refl db
  · exact escalated_induction (Continues db)
      (fun middle item _ hmiddle => hmiddle.trans (continues_escalateOne env middle item))
        (.refl db)

theorem continues_perform (hdb : WellFormed db) (call : Call) : Continues db (call.perform db) := by
  have heffect := hdb.effect_perform call
  generalize call.perform db = db' at heffect ⊢
  cases heffect with
  | refused => exact .refl db
  | defined => exact ⟨(Continues.refl db).executions, (Continues.refl db).requests⟩
  | deleted env workflowId db' hdeleted =>
      have hsame := workflowRequests_deleted hdb hdeleted
      obtain ⟨-, -, hdb'⟩ := Database.deleteWorkflow?_eq_some hdeleted
      have hsteps : db'.requestSteps = db.requestSteps := by rw [hdb']
      exact ⟨hsteps.symm ▸ (Continues.refl db).executions,
        hsame.symm ▸ (Continues.refl db).requests⟩
  | started =>
      exact ⟨fun exec hexec => ⟨exec, List.mem_append_left _ hexec, .refl exec⟩,
        fun request hrequest => ⟨request, List.mem_append_left _ hrequest, .refl request⟩⟩
  | decided _ requestId user outcome context request exec status db' _ _ _ haccepted hrouted =>
      exact continues_routed hdb haccepted hrouted
  | scanned env => exact continues_scanned env db

/-! ## Runs -/

theorem continues_runCalls (hdb : WellFormed db) (calls : List Call) :
    Continues db (runCalls db calls) :=
  SerialRun.related WellFormed Continues Continues.refl
    (fun _ _ _ => Continues.trans) (fun _ call hdb => wellFormed_perform hdb call)
    (fun _ call hdb => continues_perform hdb call) calls hdb

end WorkflowPlatform
