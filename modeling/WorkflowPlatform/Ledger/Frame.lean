import WorkflowPlatform.Monitoring.Scan

/-! # What a call leaves alone

A decided execution is never written again, apart from the mark of a scan. A call
touches the rows of the request it decides; of every other request a scan may mark
executions and add breach entries, and nothing else happens to it. The logs only
grow at their ends.
-/

namespace WorkflowPlatform

open Python WorkflowEngine SLAMonitor

/-! ## The rows of a request -/

namespace Database

variable (db : Database)

def execution? (id : Uuid) : Option RequestStep := db.requestSteps.find? (·.id = id)

/-- The status history of a request, in the order it was written. -/
def history (requestId : Uuid) : List RequestStateHistory :=
  db.requestStateHistory.filter (·.requestId = requestId)

/-- The audit entries about a request, in the order they were written. -/
def entries (requestId : Uuid) : List AuditLog :=
  db.auditLogs.filter (·.requestId = some requestId)

end Database

/-- An execution after some were marked. -/
def RequestStep.markedIn (marked : List Uuid) (exec : RequestStep) : RequestStep :=
  if exec.id ∈ marked then { exec with isSlaBreached := true } else exec

@[simp] theorem RequestStep.markedIn_nil (exec : RequestStep) : exec.markedIn [] = exec := rfl

@[simp] theorem RequestStep.markedIn_id (marked : List Uuid) (exec : RequestStep) :
    (exec.markedIn marked).id = exec.id := by
  unfold RequestStep.markedIn
  split <;> rfl

@[simp] theorem RequestStep.markedIn_requestId (marked : List Uuid) (exec : RequestStep) :
    (exec.markedIn marked).requestId = exec.requestId := by
  unfold RequestStep.markedIn
  split <;> rfl

@[simp] theorem RequestStep.markedIn_status (marked : List Uuid) (exec : RequestStep) :
    (exec.markedIn marked).status = exec.status := by
  unfold RequestStep.markedIn
  split <;> rfl

@[simp] theorem RequestStep.markedIn_completedAt (marked : List Uuid) (exec : RequestStep) :
    (exec.markedIn marked).completedAt = exec.completedAt := by
  unfold RequestStep.markedIn
  split <;> rfl

/-! ## What may happen to other rows -/

/-- The request a call decides. -/
def Call.decides? : Call → Option Uuid
  | processStep _ requestId _ _ _ | makeDecision _ requestId _ _ => some requestId
  | _ => none

def Call.isScan : Call → Bool
  | scanForBreaches _ => true
  | _ => false

/-- A request is left alone: only its executions may be marked, and only breach
entries added, and that by no call but a scan. -/
structure LeftAlone (call : Call) (db db' : Database) (request : WorkflowRequest) : Prop where
  request_kept : db'.request? request.id = some request
  history_kept : db'.history request.id = db.history request.id
  executions_marked : ∃ marked,
    db'.executions request.id = (db.executions request.id).map (·.markedIn marked)
  entries_added : ∃ added, db'.entries request.id = db.entries request.id ++ added ∧
    ∀ entry ∈ added, entry.action = .slaBreachDetected
  unscanned : call.isScan = false → db'.executions request.id = db.executions request.id ∧
    db'.entries request.id = db.entries request.id

/-- What a call keeps: decided executions up to their marks, the requests it does
not decide, and all logs. -/
structure KeepsRecords (call : Call) (db db' : Database) : Prop where
  decided : ∀ exec ∈ db.requestSteps, exec.completedAt.isSome →
    ∃ marked, db'.execution? exec.id = some (exec.markedIn marked) ∧
      (call.isScan = false → marked = [])
  others : ∀ request ∈ db.workflowRequests, call.decides? ≠ some request.id →
    LeftAlone call db db' request
  history : db.requestStateHistory <+: db'.requestStateHistory
  audit : db.auditLogs <+: db'.auditLogs
  escalations : db.slaEscalations <+: db'.slaEscalations
  unescalated : call.isScan = false → db'.slaEscalations = db.slaEscalations

variable {db db' : Database} {call : Call}

theorem Submits.decides?_eq {requestId : Uuid} {user : User}
    (hsubmits : Submits requestId user call) : call.decides? = some requestId := by
  cases hsubmits <;> rfl

theorem WellFormed.execution?_eq_some_iff (hdb : WellFormed db) {execId : Uuid}
    {exec : RequestStep} :
    db.execution? execId = some exec ↔ exec ∈ db.requestSteps ∧ exec.id = execId :=
  Keyed.find?_eq_some_iff hdb.execution_keys

/-! ## Calls that do not write to a request -/

/-- Rows that are still there as they were leave a request alone. -/
theorem leftAlone_of_eq {request : WorkflowRequest}
    (hrequest : db'.request? request.id = some request)
    (hhistory : db'.history request.id = db.history request.id)
    (hexecutions : db'.executions request.id = db.executions request.id)
    (hentries : db'.entries request.id = db.entries request.id) :
    LeftAlone call db db' request where
  request_kept := hrequest
  history_kept := hhistory
  executions_marked := ⟨[], by simp [hexecutions]⟩
  entries_added := ⟨[], by simp [hentries], by simp⟩
  unscanned _ := ⟨hexecutions, hentries⟩

/-- A state in which only definitions changed. -/
theorem keepsRecords_of_eq (hdb : WellFormed db)
    (hrequests : db'.workflowRequests = db.workflowRequests)
    (hsteps : db'.requestSteps = db.requestSteps)
    (hhistory : db'.requestStateHistory = db.requestStateHistory)
    (haudit : db'.auditLogs = db.auditLogs)
    (hescalations : db'.slaEscalations = db.slaEscalations) : KeepsRecords call db db' where
  decided exec hexec _ := by
    refine ⟨[], ?_, fun _ => rfl⟩
    rw [Database.execution?, hsteps]
    exact hdb.execution?_eq_some_iff.mpr ⟨hexec, rfl⟩
  others request hrequest _ := by
    apply leftAlone_of_eq
    · rw [Database.request?, hrequests]
      exact hdb.request?_eq_some_iff.mpr ⟨hrequest, rfl⟩
    · rw [Database.history, hhistory, Database.history]
    · rw [Database.executions, hsteps, Database.executions]
    · rw [Database.entries, haudit, Database.entries]
  history := hhistory ▸ List.prefix_rfl
  audit := haudit ▸ List.prefix_rfl
  escalations := hescalations ▸ List.prefix_rfl
  unescalated _ := hescalations

/-! ## Starts -/

theorem keepsRecords_startedAt (hdb : WellFormed db) (env : Env) (workflowId requesterId : Uuid)
    (data : Dict) (first : WorkflowStep) (deadline : DateTime) :
    KeepsRecords call db (startedAt env db workflowId requesterId data first deadline) where
  decided exec hexec _ := by
    refine ⟨[], ?_, fun _ => rfl⟩
    rw [Database.execution?, startedAt, List.find?_append, ← Database.execution?,
      hdb.execution?_eq_some_iff.mpr ⟨hexec, rfl⟩]
    rfl
  others request hrequest _ := by
    have hne : db.nextId ≠ request.id := (hdb.request_fresh request hrequest).ne'
    apply leftAlone_of_eq
    · rw [Database.request?, startedAt, List.find?_append, ← Database.request?,
        hdb.request?_eq_some_iff.mpr ⟨hrequest, rfl⟩]
      rfl
    · simp [Database.history, startedAt, List.filter_append, historyRow, hne]
    · exact executions_concat_of_ne hne
    · simp [Database.entries, startedAt, List.filter_append, requestAudit, hne]
  history := List.prefix_append _ _
  audit := List.prefix_append _ _
  escalations := List.prefix_rfl
  unescalated _ := rfl

/-! ## Decisions -/

section Decided

variable {env : Env} {user : User} {outcome : String} {context : Option Dict} {requestId : Uuid}
  {request : WorkflowRequest} {exec : RequestStep} {status : Option StepStatus}

/-- A completion adds two rows to the history of its request. -/
theorem history_completed :
    (completed env db request exec user outcome context status).history request.id =
      db.history request.id ++
        [historyRow env request.id request.status (verdictOf outcome) user.id
            s!"Final step outcome: {outcome}" db.nextId,
          historyRow env request.id (verdictOf outcome) .completed user.id "Workflow completion"
            (db.nextId + 1)] := by
  simp [Database.history, completed, List.filter_append, historyRow]

/-- A completion adds two entries about its request. -/
theorem entries_completed :
    (completed env db request exec user outcome context status).entries request.id =
      db.entries request.id ++
        [requestAudit env .workflowCompleted user.id request.id
            [("final_outcome", .text outcome)] (db.nextId + 2),
          stepAudit env user exec request.id outcome (db.nextId + 3)] := by
  simp [Database.entries, completed, List.filter_append, stepAudit, requestAudit]

/-- The history of a request after a decision: as before, or completed by two rows. -/
theorem requestStateHistory_routed
    (hrouted : Routed env db user outcome context request exec status db') :
    ∃ added, db'.requestStateHistory = db.requestStateHistory ++ added ∧
      ∀ row ∈ added, row.requestId = request.id := by
  cases hrouted with
  | moved => exact ⟨[], (List.append_nil _).symm, by simp⟩
  | finished => exact ⟨_, rfl, by simp [historyRow]⟩

theorem auditLogs_routed (hrouted : Routed env db user outcome context request exec status db') :
    ∃ added, db'.auditLogs = db.auditLogs ++ added ∧
      ∀ entry ∈ added, entry.requestId = some request.id := by
  cases hrouted with
  | moved => exact ⟨_, rfl, by simp [stepAudit]⟩
  | finished => exact ⟨_, rfl, by simp [requestAudit, stepAudit]⟩

theorem slaEscalations_routed
    (hrouted : Routed env db user outcome context request exec status db') :
    db'.slaEscalations = db.slaEscalations := by
  cases hrouted <;> rfl

theorem keepsRecords_routed (hdb : WellFormed db)
    (haccepted : Accepted env db requestId user outcome context request exec status)
    (hrouted : Routed env db user outcome context request exec status db')
    (hdecides : call.decides? = some requestId) : KeepsRecords call db db' := by
  obtain ⟨-, hid⟩ := hdb.request?_eq_some_iff.mp haccepted.request_read
  obtain ⟨hexec, howner, decided, hactive⟩ :=
    hdb.active_of_openExecution haccepted.request_read haccepted.execution_open
  have hafter := wellFormed_routed hdb haccepted hrouted
  obtain ⟨rows, hhistory, hrows⟩ := requestStateHistory_routed hrouted
  obtain ⟨added, haudit, hadded⟩ := auditLogs_routed hrouted
  exact {
    decided := by
      intro row hrow hclosed
      refine ⟨[], hafter.execution?_eq_some_iff.mpr ⟨?_, rfl⟩, fun _ => rfl⟩
      -- the row that is written is open, so it is another one
      have hne : row.id ≠ exec.id := by
        intro heq
        rw [Keyed.ext hdb.execution_keys hrow hexec heq, hactive.untouched.completedAt_none]
          at hclosed
        cases hclosed
      have hkept : row ∈ closedSteps env db exec user outcome context status :=
        Keyed.mem_update.mpr (.inr ⟨hrow, hne⟩)
      cases hrouted with
      | moved => exact List.mem_append_left _ hkept
      | finished => exact hkept
    others := by
      intro other hother hundecided
      have hne : other.id ≠ request.id := by
        intro heq
        rw [hdecides, heq, hid] at hundecided
        exact hundecided rfl
      apply leftAlone_of_eq
      · rw [request?_routed_of_ne hne hrouted]
        exact hdb.request?_eq_some_iff.mpr ⟨hother, rfl⟩
      · rw [Database.history, hhistory, List.filter_append, ← Database.history]
        refine List.append_right_eq_self.mpr (List.filter_eq_nil_iff.mpr fun row hrow => ?_)
        simpa [hrows row hrow] using hne.symm
      · exact executions_routed_of_ne hdb hexec howner hne.symm hrouted
      · rw [Database.entries, haudit, List.filter_append, ← Database.entries]
        refine List.append_right_eq_self.mpr (List.filter_eq_nil_iff.mpr fun entry hentry => ?_)
        simpa [hadded entry hentry] using hne.symm
    history := hhistory ▸ List.prefix_append _ _
    audit := haudit ▸ List.prefix_append _ _
    escalations := slaEscalations_routed hrouted ▸ List.prefix_rfl
    unescalated := fun _ => slaEscalations_routed hrouted }

end Decided

/-! ## Scans -/

/-- Escalating touches neither the requests nor their histories. -/
theorem requests_escalated (env : Env) (db : Database) (items : List Positioned) :
    (escalated env db items).workflowRequests = db.workflowRequests ∧
      (escalated env db items).requestStateHistory = db.requestStateHistory :=
  escalated_induction (fun db' => db'.workflowRequests = db.workflowRequests ∧
    db'.requestStateHistory = db.requestStateHistory) (fun _ _ _ hsame => hsame) ⟨rfl, rfl⟩

theorem executions_escalated (env : Env) (db : Database) (items : List Positioned)
    (requestId : Uuid) :
    (escalated env db items).executions requestId =
      (db.executions requestId).map (·.markedIn (items.map (·.2.id))) := by
  rw [Database.executions, requestSteps_escalated, List.filter_map, Database.executions]
  congr 1
  apply List.filter_congr
  intro exec _
  exact congrArg (fun id => decide (id = requestId)) (exec.markedIn_requestId _)

theorem keepsRecords_scanned (hdb : WellFormed db) (env : Env) :
    KeepsRecords (.scanForBreaches env) db (scanned env db) := by
  have hafter := wellFormed_scanned hdb env
  obtain ⟨items, hscanned, -, hitems⟩ := scanned_eq_escalated hdb env
  have hdeadlines : ∀ item ∈ items, item.2.deadline.isSome := by
    intro item hitem
    obtain ⟨deadline, hdeadline, -⟩ := deadline_of_overdue (hitems item hitem).2
    rw [hdeadline, Option.isSome_some]
  obtain ⟨hrequests, hhistory⟩ := requests_escalated env db items
  obtain ⟨added, haudit, hactions, -⟩ := auditLogs_escalated env hdeadlines db
  obtain ⟨rows, hescalations, -⟩ := slaEscalations_escalated env items db
  rw [hscanned] at hafter ⊢
  exact {
    decided := by
      intro exec hexec _
      refine ⟨items.map (·.2.id), hafter.execution?_eq_some_iff.mpr ⟨?_, by simp⟩, ?_⟩
      · rw [requestSteps_escalated]
        exact List.mem_map_of_mem hexec
      · rintro ⟨⟩
    others := by
      intro request hrequest _
      exact {
        request_kept := by
          rw [Database.request?, hrequests]
          exact hdb.request?_eq_some_iff.mpr ⟨hrequest, rfl⟩
        history_kept := by rw [Database.history, hhistory, Database.history]
        executions_marked := ⟨_, executions_escalated env db items request.id⟩
        entries_added := by
          refine ⟨added.filter (·.requestId = some request.id), ?_, ?_⟩
          · rw [Database.entries, haudit, List.filter_append, Database.entries]
          · exact fun entry hentry => hactions entry (List.mem_of_mem_filter hentry)
        unscanned := by rintro ⟨⟩ }
    history := hhistory ▸ List.prefix_rfl
    audit := haudit ▸ List.prefix_append _ _
    escalations := hescalations ▸ List.prefix_append _ _
    unescalated := by rintro ⟨⟩ }

/-! ## Every call -/

theorem WellFormed.keepsRecords (hdb : WellFormed db) (call : Call) :
    KeepsRecords call db (call.perform db) := by
  have heffect := hdb.effect_perform call
  generalize call.perform db = db' at heffect ⊢
  cases heffect with
  | refused => exact keepsRecords_of_eq hdb rfl rfl rfl rfl rfl
  | defined => exact keepsRecords_of_eq hdb rfl rfl rfl rfl rfl
  | deleted env workflowId db' hdeleted =>
      have hrequests := workflowRequests_deleted hdb hdeleted
      obtain ⟨-, -, rfl⟩ := Database.deleteWorkflow?_eq_some hdeleted
      exact keepsRecords_of_eq hdb hrequests rfl rfl rfl rfl
  | started env workflowId requesterId data workflow first deadline =>
      exact keepsRecords_startedAt hdb env workflowId requesterId data first deadline
  | decided _ requestId user outcome context request exec status db' hsubmits _ _ haccepted
      hrouted =>
      exact keepsRecords_routed hdb haccepted hrouted hsubmits.decides?_eq
  | scanned env => exact keepsRecords_scanned hdb env

/-- Decisions are written once and logs only grow, whatever call runs in whatever
reachable state. -/
theorem decisions_write_once (hreachable : Reachable db) (call : Call) :
    KeepsRecords call db (call.perform db) :=
  hreachable.wellFormed.keepsRecords call

/-- A scan after the first of two reviews was approved. -/
theorem decisions_write_once_approved :
    KeepsRecords (.scanForBreaches (.calm Sample.later))
      (runCalls Database.empty (Sample.opening Sample.approvals [] ++ [Sample.approval]))
      ((Call.scanForBreaches (.calm Sample.later)).perform
        (runCalls Database.empty (Sample.opening Sample.approvals [] ++ [Sample.approval]))) :=
  decisions_write_once ⟨Sample.opening Sample.approvals [] ++ [Sample.approval], rfl⟩
    (.scanForBreaches (.calm Sample.later))

end WorkflowPlatform
