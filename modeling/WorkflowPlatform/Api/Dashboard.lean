import WorkflowPlatform.Deciding.TaskList
import WorkflowPlatform.Monitoring.Marks

/-! # The dashboard

The dashboard counts rows of two tables by their status. In every reachable state the
counts fit together: the active and the completed requests are all there are, the
active ones are the task list of an administrator, and the pending tasks exceed them by
the executions that were decided with the outcome PENDING.
-/

namespace WorkflowPlatform

open Python WorkflowEngine Endpoint

namespace Endpoint

/-- The answer of `get_dashboard_stats`. -/
structure DashboardStats where
  active : ℕ
  completed : ℕ
  pending : ℕ
  overdue : ℕ
  deriving DecidableEq

/-- `GET /requests/stats`. -/
def getDashboardStats (db : Database) : DashboardStats where
  active := (db.workflowRequests.filter (·.status = .inProgress)).length
  completed := (db.workflowRequests.filter (·.status = .completed)).length
  pending := (db.requestSteps.filter (·.status = .pending)).length
  overdue := (db.requestSteps.filter (·.isSlaBreached)).length

end Endpoint

variable {db : Database}

/-! ## Requests -/

/-- A reachable request is active or completed. -/
theorem completed_iff_not_inProgress (hdb : WellFormed db) {request : WorkflowRequest}
    (hrequest : request ∈ db.workflowRequests) :
    request.status = .completed ↔ ¬request.status = .inProgress := by
  rcases hdb.conducted request hrequest with ⟨decided, current, hactive⟩ | hfinished
  · simp [hactive.status_eq]
  · simp [hfinished.status_eq]

theorem active_add_completed (hdb : WellFormed db) :
    (getDashboardStats db).active + (getDashboardStats db).completed =
      db.workflowRequests.length := by
  have hcompleted : db.workflowRequests.filter (·.status = .completed) =
      db.workflowRequests.filter fun request => !decide (request.status = .inProgress) := by
    apply List.filter_congr
    intro request hrequest
    rw [← decide_not, decide_eq_decide]
    exact completed_iff_not_inProgress hdb hrequest
  rw [getDashboardStats, hcompleted]
  exact (List.length_eq_length_filter_add _).symm

/-- A request is active when one of its executions is undecided. -/
theorem inProgress_iff_undecided (hdb : WellFormed db) {request : WorkflowRequest}
    (hrequest : request ∈ db.workflowRequests) :
    request.status = .inProgress ↔
      ∃ exec ∈ db.requestSteps, exec.requestId = request.id ∧ exec.completedAt = none := by
  constructor
  · intro hstatus
    rcases hdb.conducted request hrequest with ⟨decided, current, hactive⟩ | hfinished
    · have hlast : current ∈ db.openExecutions request.id := by
        rw [openExecutions_of_active hactive]
        exact List.mem_singleton_self _
      obtain ⟨hexec, howner, hopen⟩ := mem_openExecutions.mp hlast
      exact ⟨current, hexec, howner, hopen⟩
    · rw [hfinished.status_eq] at hstatus
      cases hstatus
  · intro hundecided
    obtain ⟨exec, hexec, howner, hopen⟩ := hundecided
    obtain ⟨decided, hactive⟩ :=
      active_of_open hdb hrequest (mem_openExecutions.mpr ⟨hexec, howner, hopen⟩)
    exact hactive.status_eq

/-! ## Tasks -/

/-- The undecided executions belong to the active requests, one to each. -/
theorem undecided_perm (hdb : WellFormed db) :
    ((db.requestSteps.filter (·.completedAt.isNone)).map (·.requestId)).Perm
      ((db.workflowRequests.filter (·.status = .inProgress)).map (·.id)) := by
  have howners : ((db.requestSteps.filter (·.completedAt.isNone)).map (·.requestId)).Nodup := by
    apply (List.nodup_map_iff_inj_on ((List.Nodup.of_map _ hdb.execution_keys).filter _)).mpr
    intro first hfirst second hsecond heq
    obtain ⟨hmem, hopen⟩ := List.mem_filter.mp hfirst
    obtain ⟨hmem', hopen'⟩ := List.mem_filter.mp hsecond
    obtain ⟨request, -, hid, decided, hactive⟩ :=
      active_of_undecided hdb hmem (Option.isNone_iff_eq_none.mp hopen)
    have hlisted : second ∈ db.openExecutions request.id :=
      mem_openExecutions.mpr ⟨hmem', heq.symm.trans hid.symm, Option.isNone_iff_eq_none.mp hopen'⟩
    rw [openExecutions_of_active hactive] at hlisted
    exact (List.mem_singleton.mp hlisted).symm
  have hids : ((db.workflowRequests.filter (·.status = .inProgress)).map (·.id)).Nodup :=
    hdb.request_keys.sublist (List.filter_sublist.map _)
  apply (List.perm_ext_iff_of_nodup howners hids).mpr
  intro requestId
  constructor
  · intro howner
    obtain ⟨exec, hexec, rfl⟩ := List.mem_map.mp howner
    obtain ⟨hmem, hopen⟩ := List.mem_filter.mp hexec
    obtain ⟨request, hrequest, hid, decided, hactive⟩ :=
      active_of_undecided hdb hmem (Option.isNone_iff_eq_none.mp hopen)
    rw [← hid]
    exact List.mem_map_of_mem (List.mem_filter.mpr ⟨hrequest, decide_eq_true hactive.status_eq⟩)
  · intro hid
    obtain ⟨request, hrequest, rfl⟩ := List.mem_map.mp hid
    obtain ⟨hmem, hstatus⟩ := List.mem_filter.mp hrequest
    obtain ⟨exec, hexec, howner, hopen⟩ :=
      (inProgress_iff_undecided hdb hmem).mp (of_decide_eq_true hstatus)
    rw [← howner]
    exact List.mem_map_of_mem (List.mem_filter.mpr ⟨hexec, Option.isNone_iff_eq_none.mpr hopen⟩)

/-- Undecided executions are pending. -/
theorem undecided_pending (hdb : WellFormed db) :
    (db.requestSteps.filter fun exec => exec.status = .pending ∧ exec.completedAt.isNone) =
      db.requestSteps.filter (·.completedAt.isNone) := by
  apply List.filter_congr
  intro exec hexec
  cases hopen : exec.completedAt with
  | some completed => simp
  | none =>
      obtain ⟨request, -, -, decided, hactive⟩ := active_of_undecided hdb hexec hopen
      simp [hactive.untouched.status_pending]

/-- An administrator's task list has one entry for each active request. -/
theorem adminTasks_perm (hdb : WellFormed db) (order : RowOrder RequestStep) {user : User}
    (hadmin : isAdmin user = true) :
    ((getMyTasks order db user).map (·.requestId)).Perm
      ((db.workflowRequests.filter (·.status = .inProgress)).map (·.id)) := by
  have hviews : ∀ exec ∈ order.rows (db.requestSteps.filter fun exec =>
      exec.status = .pending ∧ exec.completedAt.isNone),
        ∃ task, taskView? db user exec = some task ∧ task.requestId = exec.requestId := by
    intro exec hexec
    obtain ⟨hmem, -, hopen⟩ := mem_pending.mp hexec
    obtain ⟨request, hrequest, hid, decided, hactive⟩ := active_of_undecided hdb hmem hopen
    obtain ⟨stepDef, hstep⟩ := step?_of_active hdb hactive
    obtain ⟨workflow, hworkflow⟩ := hdb.workflow?_of_request hrequest
    have hread := hdb.request?_eq_some_iff.mpr ⟨hrequest, hid⟩
    have hview : (taskView? db user exec).isSome := by
      simp [taskView?, hstep, hread, hworkflow, showsStep, hadmin]
    obtain ⟨task, hview⟩ := Option.isSome_iff_exists.mp hview
    exact ⟨task, hview, (taskView?_eq_some hview).1⟩
  rw [getMyTasks, Keyed.filterMap_keys_eq _ hviews]
  refine ((order.perm _).map _).trans ?_
  rw [undecided_pending hdb]
  exact undecided_perm hdb

/-- The pending executions are the undecided ones and those decided with PENDING. -/
theorem pending_eq (hdb : WellFormed db) :
    (getDashboardStats db).pending = (getDashboardStats db).active +
      (db.requestSteps.filter fun exec =>
        exec.status = .pending ∧ exec.completedAt.isSome).length := by
  have hactive : (getDashboardStats db).active =
      (db.requestSteps.filter (·.completedAt.isNone)).length := by
    simpa [getDashboardStats] using (undecided_perm hdb).length_eq.symm
  have hdecided : (db.requestSteps.filter (·.status = .pending)).filter
      (fun exec => !exec.completedAt.isNone) =
        db.requestSteps.filter fun exec => exec.status = .pending ∧ exec.completedAt.isSome := by
    rw [List.filter_filter]
    apply List.filter_congr
    intro exec _
    cases exec.completedAt <;> simp
  have hundecided : (db.requestSteps.filter (·.status = .pending)).filter
      (·.completedAt.isNone) = db.requestSteps.filter (·.completedAt.isNone) := by
    rw [← undecided_pending hdb, List.filter_filter]
    apply List.filter_congr
    intro exec _
    cases exec.completedAt <;> simp
  calc (getDashboardStats db).pending
      = (db.requestSteps.filter (·.status = .pending)).length := rfl
    _ = _ := List.length_eq_length_filter_add (·.completedAt.isNone)
    _ = _ := by rw [hundecided, hdecided, hactive]

/-! ## Breaches -/

/-- The breached executions are the escalated ones. -/
theorem overdue_eq (hdb : WellFormed db) :
    (getDashboardStats db).overdue = db.slaEscalations.length := by
  have hperm : ((db.requestSteps.filter (·.isSlaBreached)).map (·.id)).Perm
      (db.slaEscalations.map (·.requestStepId)) := by
    apply (List.perm_ext_iff_of_nodup
      (hdb.execution_keys.sublist (List.filter_sublist.map _)) hdb.escalation_keys).mpr
    intro id
    constructor
    · intro hid
      obtain ⟨exec, hexec, rfl⟩ := List.mem_map.mp hid
      obtain ⟨hmem, hbreached⟩ := List.mem_filter.mp hexec
      obtain ⟨escalation, hescalation, hid⟩ := hdb.breach_escalated exec hmem hbreached
      exact List.mem_map.mpr ⟨escalation, hescalation, hid⟩
    · intro hid
      obtain ⟨escalation, hescalation, rfl⟩ := List.mem_map.mp hid
      obtain ⟨exec, hexec, hid, hbreached⟩ := hdb.escalation_execution escalation hescalation
      exact List.mem_map.mpr ⟨exec, List.mem_filter.mpr ⟨hexec, hbreached⟩, hid⟩
  simpa [getDashboardStats] using hperm.length_eq

/-- In every reachable state the counts of the dashboard fit together, and the active
requests are the task list of whoever is an administrator. -/
theorem dashboard_adds_up (hreachable : Reachable db) (order : RowOrder RequestStep) {user : User}
    (hadmin : isAdmin user = true) :
    let stats := getDashboardStats db
    stats.active + stats.completed = db.workflowRequests.length ∧
      stats.pending = stats.active + (db.requestSteps.filter fun exec =>
        exec.status = .pending ∧ exec.completedAt.isSome).length ∧
      stats.overdue = db.slaEscalations.length ∧
      ((getMyTasks order db user).map (·.requestId)).Perm
        ((db.workflowRequests.filter (·.status = .inProgress)).map (·.id)) := by
  have hdb := hreachable.wellFormed
  exact ⟨active_add_completed hdb, pending_eq hdb, overdue_eq hdb, adminTasks_perm hdb order hadmin⟩

/-- One request at its first review, which a scan has marked. -/
theorem dashboard_adds_up_unattended :
    (getDashboardStats (runCalls Database.empty Sample.unattended)).overdue = 1 ∧
      (getDashboardStats (runCalls Database.empty Sample.unattended)).pending = 1 := by
  have hstats := dashboard_adds_up ⟨Sample.unattended, rfl⟩ .stored
    (show isAdmin Sample.admin = true by decide)
  obtain ⟨-, hpending, hoverdue, -⟩ := hstats
  rw [hpending, hoverdue]
  decide +kernel

end WorkflowPlatform
