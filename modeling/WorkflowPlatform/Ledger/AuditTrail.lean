import WorkflowPlatform.Ledger.StateTrail

/-! # The audit ledger of a request

Up to their order and their times, the audit entries about a request are determined
by its rows: one for its start, one for each decided execution, one for each marked
execution, and one for its completion.
-/

namespace WorkflowPlatform

open Python WorkflowEngine SLAMonitor

/-! ## What entries say -/

/-- An audit entry without its identifier and its time. -/
structure AuditContent where
  action : AuditAction
  resourceType : ResourceType
  resourceId : Uuid
  actorId : Option Uuid
  metaData : List (String × MetaValue)
  deriving DecidableEq

def AuditLog.content (entry : AuditLog) : AuditContent where
  action := entry.action
  resourceType := entry.resourceType
  resourceId := entry.resourceId
  actorId := entry.actorId
  metaData := entry.metaData

def startedContent (request : WorkflowRequest) : AuditContent where
  action := .workflowStarted
  resourceType := .workflowRequest
  resourceId := request.id
  actorId := request.requesterId
  metaData := [("workflow_id", .uuid request.workflowId)]

def decidedContent (exec : RequestStep) : AuditContent where
  action := .stepCompleted
  resourceType := .requestStep
  resourceId := exec.id
  actorId := exec.assignedTo
  metaData := [("outcome", .text exec.status.value), ("step_id", .uuid exec.stepId)]

def breachContent (exec : RequestStep) : AuditContent where
  action := .slaBreachDetected
  resourceType := .requestStep
  resourceId := exec.id
  actorId := none
  metaData := (exec.deadline.map fun deadline => ("deadline", MetaValue.time deadline)).toList

/-- The entry of a completion by the last decision. -/
def completedContent (request : WorkflowRequest) (last : RequestStep) : AuditContent where
  action := .workflowCompleted
  resourceType := .workflowRequest
  resourceId := request.id
  actorId := last.assignedTo
  metaData := [("final_outcome", .text last.status.value)]

/-! ## The ledger -/

/-- The marked executions of a request. -/
def Database.breachedExecutions (db : Database) (requestId : Uuid) : List RequestStep :=
  (db.executions requestId).filter (·.isSlaBreached)

/-- The entries about the completion of a request: one when it is completed. -/
inductive Completion (db : Database) (request : WorkflowRequest) : List AuditContent → Prop
  | completed (last : RequestStep) (hstatus : request.status = .completed)
      (hlast : (db.decidedExecutions request.id).getLast? = some last) :
      Completion db request [completedContent request last]
  | running (hstatus : request.status ≠ .completed) : Completion db request []

/-- The audit entries of a request are those its rows call for. -/
structure ExactLedger (db : Database) (request : WorkflowRequest) : Prop where
  entries : ∃ completion, Completion db request completion ∧
    ((db.entries request.id).map (·.content)).Perm
      (startedContent request :: ((db.decidedExecutions request.id).map decidedContent ++
        (db.breachedExecutions request.id).map breachContent ++ completion))
  count : (db.entries request.id).length = 1 + (db.decidedExecutions request.id).length +
    (db.breachedExecutions request.id).length + if request.status = .completed then 1 else 0

variable {db db' : Database} {request : WorkflowRequest}

theorem Completion.length {completion : List AuditContent}
    (hcompletion : Completion db request completion) :
    completion.length = if request.status = .completed then 1 else 0 := by
  cases hcompletion with
  | completed last hstatus => rw [if_pos hstatus, List.length_singleton]
  | running hstatus => rw [if_neg hstatus, List.length_nil]

/-- The number of entries follows from what they are. -/
theorem ExactLedger.of_entries {completion : List AuditContent}
    (hcompletion : Completion db request completion)
    (hentries : ((db.entries request.id).map (·.content)).Perm
      (startedContent request :: ((db.decidedExecutions request.id).map decidedContent ++
        (db.breachedExecutions request.id).map breachContent ++ completion))) :
    ExactLedger db request where
  entries := ⟨completion, hcompletion, hentries⟩
  count := by
    have hlength := hentries.length_eq
    have hcompleted := hcompletion.length
    simp only [List.length_map, List.length_cons, List.length_append] at hlength
    omega

/-! ## Marks -/

section Marks

variable (marked : List Uuid)

@[simp] theorem decidedContent_markedIn (exec : RequestStep) :
    decidedContent (exec.markedIn marked) = decidedContent exec := by
  unfold RequestStep.markedIn
  split <;> rfl

@[simp] theorem breachContent_markedIn (exec : RequestStep) :
    breachContent (exec.markedIn marked) = breachContent exec := by
  unfold RequestStep.markedIn
  split <;> rfl

@[simp] theorem completedContent_markedIn (exec : RequestStep) :
    completedContent request (exec.markedIn marked) = completedContent request exec := by
  unfold RequestStep.markedIn
  split <;> rfl

theorem isSlaBreached_markedIn (exec : RequestStep) :
    (exec.markedIn marked).isSlaBreached = (exec.isSlaBreached || decide (exec.id ∈ marked)) := by
  unfold RequestStep.markedIn
  by_cases hlisted : exec.id ∈ marked
  · simp [hlisted]
  · simp [hlisted]

theorem Completion.of_marked
    (hexecutions : db'.executions request.id = (db.executions request.id).map (·.markedIn marked))
    {completion : List AuditContent} (hcompletion : Completion db request completion) :
    Completion db' request completion := by
  cases hcompletion with
  | completed last hstatus hlast =>
      rw [← completedContent_markedIn marked last]
      refine .completed _ hstatus ?_
      rw [decidedExecutions_marked marked hexecutions, List.getLast?_map, hlast, Option.map_some]
  | running hstatus => exact .running hstatus

end Marks

/-! ## Scans -/

/-- The entries a scan adds for a request are those of its escalated executions. -/
theorem entries_escalated (env : Env) (requestId : Uuid) {items : List Positioned}
    (hdeadlines : ∀ item ∈ items, item.2.deadline.isSome) (db : Database) :
    ((escalated env db items).entries requestId).map (·.content) =
      (db.entries requestId).map (·.content) ++
        ((items.map (·.2)).filter (·.requestId = requestId)).map breachContent := by
  induction items generalizing db with
  | nil => simp [escalated]
  | cons item rest ih =>
      obtain ⟨deadline, hdeadline⟩ := Option.isSome_iff_exists.mp
        (hdeadlines item List.mem_cons_self)
      have hrest := ih (fun other hother => hdeadlines other (List.mem_cons_of_mem _ hother))
        (escalateOne env db item)
      apply hrest.trans
      have hone : (escalateOne env db item).entries requestId = db.entries requestId ++
          [breachAudit env item.2 deadline (db.nextId + 1)].filter
            (·.requestId = some requestId) := by
        simp [Database.entries, escalateOne, hdeadline, List.filter_append]
      rw [hone, List.map_append, List.append_assoc, List.map_cons, List.filter_cons]
      congr 1
      by_cases howner : item.2.requestId = requestId
      · simp [howner, breachAudit, AuditLog.content, breachContent, hdeadline]
      · simp [howner, breachAudit]

/-- Rows chosen by one of two conditions that exclude each other. -/
theorem filter_or_perm {Row : Type} {rows : List Row} {first second : Row → Bool}
    (hexclusive : ∀ row ∈ rows, second row = true → first row = false) :
    (rows.filter fun row => first row || second row).Perm
      (rows.filter first ++ rows.filter second) := by
  have hsplit := List.filter_append_perm first (rows.filter fun row => first row || second row)
  rw [List.filter_filter, List.filter_filter] at hsplit
  have hfirst : rows.filter (fun row => first row && (first row || second row)) =
      rows.filter first := List.filter_congr fun row _ => by cases first row <;> simp
  have hsecond : rows.filter (fun row => !first row && (first row || second row)) =
      rows.filter second := by
    apply List.filter_congr
    intro row hrow
    cases hchosen : second row with
    | true => simp [hexclusive row hrow hchosen]
    | false => simp
  rw [hfirst, hsecond] at hsplit
  exact hsplit.symm

/-- The marked executions after a scan are those marked before and the escalated ones. -/
theorem breachedExecutions_escalated (hdb : WellFormed db) (env : Env) (requestId : Uuid)
    {items : List Positioned} (hkeys : (items.map (·.2.id)).Nodup)
    (hitems : ∀ item ∈ items, item.2 ∈ db.requestSteps ∧ item.2.isSlaBreached = false) :
    (((escalated env db items).breachedExecutions requestId).map breachContent).Perm
      ((db.breachedExecutions requestId).map breachContent ++
        ((items.map (·.2)).filter (·.requestId = requestId)).map breachContent) := by
  have hlisted : ∀ exec ∈ db.executions requestId,
      exec.id ∈ items.map (·.2.id) ↔ exec ∈ (items.map (·.2)).filter (·.requestId = requestId) := by
    intro exec hexec
    obtain ⟨hmem, howner⟩ := WellFormed.mem_executions.mp hexec
    simp only [List.mem_filter, decide_eq_true_eq, howner, and_true]
    constructor
    · intro hid
      obtain ⟨item, hitem, heq⟩ := List.mem_map.mp hid
      exact List.mem_map.mpr
        ⟨item, hitem, Keyed.ext hdb.execution_keys (hitems item hitem).1 hmem heq⟩
    · intro hitem
      obtain ⟨item, hescalated, rfl⟩ := List.mem_map.mp hitem
      exact List.mem_map_of_mem (f := fun item : Positioned => item.2.id) hescalated
  -- the newly marked executions, in the order of the table and in the order of the scan
  have hnew : ((db.executions requestId).filter fun exec => exec.id ∈ items.map (·.2.id)).Perm
      ((items.map (·.2)).filter (·.requestId = requestId)) := by
    have hrows : (db.executions requestId).Nodup :=
      List.Nodup.of_map _ (hdb.executions_keys requestId)
    have hscan : (items.map (·.2)).Nodup := by
      apply List.Nodup.of_map (fun exec : RequestStep => exec.id)
      rw [List.map_map]
      exact hkeys
    apply (List.perm_ext_iff_of_nodup (hrows.filter _) (hscan.filter _)).mpr
    intro exec
    constructor
    · intro hexec
      obtain ⟨hexec, hid⟩ := List.mem_filter.mp hexec
      exact (hlisted exec hexec).mp (of_decide_eq_true hid)
    · intro hexec
      obtain ⟨hitem, howner⟩ := List.mem_filter.mp hexec
      obtain ⟨item, hescalated, rfl⟩ := List.mem_map.mp hitem
      have hmem : item.2 ∈ db.executions requestId :=
        WellFormed.mem_executions.mpr ⟨(hitems item hescalated).1, of_decide_eq_true howner⟩
      exact List.mem_filter.mpr ⟨hmem, decide_eq_true ((hlisted item.2 hmem).mpr hexec)⟩
  have hunmarked : ∀ exec ∈ db.executions requestId,
      decide (exec.id ∈ items.map (·.2.id)) = true → exec.isSlaBreached = false := by
    intro exec hexec hid
    obtain ⟨hitem, -⟩ := List.mem_filter.mp ((hlisted exec hexec).mp (of_decide_eq_true hid))
    obtain ⟨item, hescalated, rfl⟩ := List.mem_map.mp hitem
    exact (hitems item hescalated).2
  have hafter : ((escalated env db items).breachedExecutions requestId).map breachContent =
      ((db.executions requestId).filter fun exec =>
        exec.isSlaBreached || decide (exec.id ∈ items.map (·.2.id))).map breachContent := by
    rw [Database.breachedExecutions, executions_escalated, List.filter_map, List.map_map]
    refine (List.map_congr_left fun exec _ => breachContent_markedIn _ exec).trans ?_
    exact congrArg _ (List.filter_congr fun exec _ => isSlaBreached_markedIn _ exec)
  rw [hafter, ← List.map_append]
  refine List.Perm.map _ ((filter_or_perm hunmarked).trans ?_)
  exact (List.Perm.refl _).append hnew

theorem exactLedger_escalated (hdb : WellFormed db) (env : Env) {items : List Positioned}
    (hkeys : (items.map (·.2.id)).Nodup)
    (hitems : ∀ item ∈ items, item.2 ∈ db.requestSteps ∧ overdue (env.utcnow 0) item.2 = true)
    (hledger : ExactLedger db request) : ExactLedger (escalated env db items) request := by
  obtain ⟨completion, hcompletion, hentries⟩ := hledger.entries
  have hexecutions := executions_escalated env db items request.id
  refine .of_entries (hcompletion.of_marked _ hexecutions) ?_
  have hdeadlines : ∀ item ∈ items, item.2.deadline.isSome := by
    intro item hitem
    obtain ⟨deadline, hdeadline, -⟩ := deadline_of_overdue (hitems item hitem).2
    rw [hdeadline, Option.isSome_some]
  have hbreached := breachedExecutions_escalated hdb env request.id hkeys fun item hitem =>
    ⟨(hitems item hitem).1, unmarked_of_overdue (hitems item hitem).2⟩
  rw [entries_escalated env request.id hdeadlines, decidedExecutions_marked _ hexecutions,
    List.map_map]
  have hdecided : decidedContent ∘ (fun exec => exec.markedIn (items.map (·.2.id))) =
      decidedContent := by
    funext exec
    exact decidedContent_markedIn _ exec
  rw [hdecided]
  rw [List.perm_iff_count] at hentries hbreached ⊢
  intro content
  have hentry := hentries content
  have hbreach := hbreached content
  simp only [List.count_append, List.count_cons] at hentry hbreach ⊢
  omega

theorem ExactLedger.of_leftAlone (hdb : WellFormed db) {call : Call}
    (halone : LeftAlone call db (call.perform db) request) (hledger : ExactLedger db request) :
    ExactLedger (call.perform db) request := by
  by_cases hscan : call.isScan = true
  · cases call with
    | scanForBreaches env =>
        obtain ⟨items, hscanned, hkeys, hitems⟩ := scanned_eq_escalated hdb env
        rw [perform_scanForBreaches, hscanned]
        exact exactLedger_escalated hdb env hkeys hitems hledger
    | createWorkflow | deleteWorkflow | startWorkflow | processStep | makeDecision => cases hscan
  · obtain ⟨hexecutions, hentries⟩ := halone.unscanned (Bool.eq_false_iff.mpr hscan)
    obtain ⟨completion, hcompletion, hperm⟩ := hledger.entries
    have hmarked : (call.perform db).executions request.id =
        (db.executions request.id).map (·.markedIn []) := by
      rw [hexecutions]
      simp
    refine .of_entries (hcompletion.of_marked [] hmarked) ?_
    rw [Database.decidedExecutions, Database.breachedExecutions, hentries, hexecutions]
    exact hperm

/-! ## Starts and decisions -/

theorem exactLedger_started (hdb : WellFormed db) (hlogs : LogsFresh db) {env : Env}
    (workflowId requesterId : Uuid) (data : Dict) (first : WorkflowStep) (deadline : DateTime) :
    ExactLedger (startedAt env db workflowId requesterId data first deadline)
      (startedRequest env workflowId requesterId data first db.nextId) := by
  have hexecutions : (startedAt env db workflowId requesterId data first deadline).executions
      db.nextId = [executionRow db.nextId first.id (env.utcnow 0) deadline (db.nextId + 2)] := by
    have hnone : db.executions db.nextId = [] :=
      List.filter_eq_nil_iff.mpr fun exec hexec => by
        simpa using hdb.execution_request_fresh exec hexec
    apply (List.filter_append _ _).trans
    rw [← Database.executions, hnone]
    simp [executionRow]
  have hentries : (startedAt env db workflowId requesterId data first deadline).entries db.nextId =
      db.entries db.nextId ++ [requestAudit env .workflowStarted requesterId db.nextId
        [("workflow_id", .uuid workflowId)] (db.nextId + 3)] := by
    simp [Database.entries, startedAt, List.filter_append, requestAudit]
  rw [hlogs.entries_nil, List.nil_append] at hentries
  have hrunning : (startedRequest env workflowId requesterId data first db.nextId).status ≠
      .completed := by
    intro hcompleted
    cases hcompleted
  refine .of_entries (.running hrunning) ?_
  change ((Database.entries _ db.nextId).map _).Perm
    (_ :: ((Database.decidedExecutions _ db.nextId).map _ ++
    (Database.breachedExecutions _ db.nextId).map _ ++ []))
  rw [Database.decidedExecutions, Database.breachedExecutions, hexecutions, hentries]
  exact List.Perm.refl _

section Decided

variable {env : Env} {user : User} {outcome : String} {context : Option Dict}
  {decided : List RequestStep} {exec : RequestStep} {status : Option StepStatus}

/-- The entry about a decision says what the decided execution records. -/
theorem content_stepAudit (requestId : Uuid) (id : Uuid)
    (hstatus : (decisionOf env exec user outcome context).storedStatus? = some status) :
    (stepAudit env user exec requestId outcome id).content =
      decidedContent (closedExecution env exec user outcome context status) := by
  have houtcome : (closedExecution env exec user outcome context status).status.value = outcome :=
    storedStatus?_eq_some hstatus
  rw [decidedContent, houtcome]
  rfl

theorem sameSchedule_closed (env : Env) (exec : RequestStep) (user : User) (outcome : String)
    (context : Option Dict) (status : Option StepStatus) :
    SameSchedule exec (closedExecution env exec user outcome context status) :=
  sameSchedule_decision _ _ _

/-- Closing the open execution changes nothing about breaches. -/
theorem breachedExecutions_of_active (hactive : Active db request decided exec)
    {closed : RequestStep} (hsame : SameSchedule exec closed) :
    (db.breachedExecutions request.id).map breachContent =
      ((decided ++ [closed]).filter (·.isSlaBreached)).map breachContent := by
  rw [Database.breachedExecutions, hactive.executions_eq, List.filter_append, List.filter_append,
    List.map_append, List.map_append]
  congr 1
  have hmarked := hsame.isSlaBreached
  by_cases hbreached : exec.isSlaBreached = true
  · rw [hbreached] at hmarked
    simp [hbreached, hmarked, breachContent, hsame.id, hsame.deadline]
  · rw [Bool.not_eq_true] at hbreached
    rw [hbreached] at hmarked
    simp [hbreached, hmarked]

/-- An active request has no entry about a completion yet. -/
theorem ExactLedger.perm_of_active (hledger : ExactLedger db request)
    (hactive : Active db request decided exec) {closed : RequestStep}
    (hsame : SameSchedule exec closed) :
    ((db.entries request.id).map (·.content)).Perm
      (startedContent request :: (decided.map decidedContent ++
        ((decided ++ [closed]).filter (·.isSlaBreached)).map breachContent)) := by
  obtain ⟨completion, hcompletion, hentries⟩ := hledger.entries
  rw [decidedExecutions_of_active hactive, breachedExecutions_of_active hactive hsame] at hentries
  cases hcompletion with
  | completed last hstatus =>
      rw [hactive.status_eq] at hstatus
      cases hstatus
  | running =>
      rw [List.append_nil] at hentries
      exact hentries

/-- The open execution that a decision adds is neither decided nor marked. -/
theorem executions_filtered_movedOn (hdb : WellFormed db) (hactive : Active db request decided exec)
    (nextStep : WorkflowStep) (deadline : DateTime) :
    let db' := movedOn env db request exec user outcome context status nextStep deadline
    db'.decidedExecutions request.id =
        decided ++ [closedExecution env exec user outcome context status] ∧
      db'.breachedExecutions request.id =
        (decided ++ [closedExecution env exec user outcome context status]).filter
          (·.isSlaBreached) := by
  intro db'
  have hexecutions : db'.executions request.id = _ :=
    executions_movedOn hdb hactive nextStep deadline
  rw [Database.decidedExecutions, Database.breachedExecutions, hexecutions, List.filter_append,
    List.filter_eq_self.mpr (decided_closed_concat hactive), List.filter_append (decided ++ _)]
  exact ⟨List.append_nil _, List.append_nil _⟩

theorem exactLedger_movedOn (hdb : WellFormed db) (hledger : ExactLedger db request)
    (hactive : Active db request decided exec)
    (hstatus : (decisionOf env exec user outcome context).storedStatus? = some status)
    (nextStep : WorkflowStep) (deadline : DateTime) :
    ExactLedger (movedOn env db request exec user outcome context status nextStep deadline)
      (movedRequest request nextStep) := by
  rw [movedRequest_eq]
  refine .of_entries (.running ?_) ?_
  · change request.status ≠ _
    rw [hactive.status_eq]
    exact nofun
  change ((Database.entries _ request.id).map _).Perm
    (startedContent request :: ((Database.decidedExecutions _ request.id).map _ ++
      (Database.breachedExecutions _ request.id).map _ ++ []))
  have hentries :
      (movedOn env db request exec user outcome context status nextStep deadline).entries
      request.id = db.entries request.id ++
        [stepAudit env user exec request.id outcome (db.nextId + 1)] := by
    simp [Database.entries, movedOn, List.filter_append, stepAudit]
  obtain ⟨hdecided, hbreached⟩ := executions_filtered_movedOn hdb hactive nextStep deadline
  rw [hentries, hdecided, hbreached, List.map_append, List.map_singleton,
    content_stepAudit request.id _ hstatus]
  have hbefore := hledger.perm_of_active hactive
    (sameSchedule_closed env exec user outcome context status)
  rw [List.perm_iff_count] at hbefore ⊢
  intro content
  have hcount := hbefore content
  simp only [List.count_append, List.count_cons, List.map_append, List.map_singleton,
    List.count_nil] at hcount ⊢
  omega

theorem exactLedger_completed (hdb : WellFormed db) (hledger : ExactLedger db request)
    (hactive : Active db request decided exec)
    (hstatus : (decisionOf env exec user outcome context).storedStatus? = some status) :
    ExactLedger (completed env db request exec user outcome context status)
      (completedRequest env request) := by
  have hdecided : (completed env db request exec user outcome context status).decidedExecutions
      request.id = decided ++ [closedExecution env exec user outcome context status] :=
    decidedExecutions_completed hdb hactive
  have hbreached : (completed env db request exec user outcome context status).breachedExecutions
      request.id = (decided ++ [closedExecution env exec user outcome context status]).filter
        (·.isSlaBreached) := by
    rw [Database.breachedExecutions, executions_completed hdb hactive]
  have houtcome : (closedExecution env exec user outcome context status).status.value = outcome :=
    storedStatus?_eq_some hstatus
  refine .of_entries (.completed (closedExecution env exec user outcome context status) rfl ?_) ?_
  · exact (congrArg List.getLast? hdecided).trans List.getLast?_concat
  change ((Database.entries _ request.id).map _).Perm
    (startedContent request :: ((Database.decidedExecutions _ request.id).map _ ++
      (Database.breachedExecutions _ request.id).map _ ++ _))
  rw [entries_completed, hdecided, hbreached, List.map_append, List.map_cons, List.map_singleton,
    content_stepAudit request.id _ hstatus]
  -- the closed execution records the decision that completed the request
  have hcompletion : (requestAudit env .workflowCompleted user.id request.id
      [("final_outcome", .text outcome)] (db.nextId + 2)).content =
      completedContent (completedRequest env request)
        (closedExecution env exec user outcome context status) := by
    rw [completedContent, houtcome]
    rfl
  rw [hcompletion]
  have hbefore := hledger.perm_of_active hactive
    (sameSchedule_closed env exec user outcome context status)
  rw [List.perm_iff_count] at hbefore ⊢
  intro content
  have hcount := hbefore content
  simp only [List.count_append, List.count_cons, List.map_append, List.map_singleton,
    List.count_nil] at hcount ⊢
  omega

end Decided

/-! ## Every run -/

/-- The audit entries of every request are exactly those its rows call for. -/
theorem audit_ledger_exact (calls : List Call) :
    ∀ request ∈ (runCalls Database.empty calls).workflowRequests,
      ExactLedger (runCalls Database.empty calls) request := by
  refine requests_runCalls ExactLedger ?_ calls
  intro db call request' hdb hlogs hall heffect
  cases heffect with
  | alone hrequest halone => exact (hall request' hrequest).of_leftAlone hdb halone
  | started env workflowId requesterId data first deadline hdb' hrequest' =>
      rw [hdb', hrequest']
      exact exactLedger_started hdb hlogs workflowId requesterId data first deadline
  | moved env user outcome context request decided exec status nextStep deadline hrequest hactive
      hstatus hdb' hrequest' =>
      rw [hdb', hrequest']
      exact exactLedger_movedOn hdb (hall request hrequest) hactive hstatus nextStep deadline
  | finished env user outcome context request decided exec status hrequest hactive hstatus hdb'
      hrequest' =>
      rw [hdb', hrequest']
      exact exactLedger_completed hdb (hall request hrequest) hactive hstatus

theorem audit_ledger_exact_approved :
    ∃ request ∈ (runCalls Database.empty Sample.approvedTwice).workflowRequests,
      request.status = .completed ∧
      ExactLedger (runCalls Database.empty Sample.approvedTwice) request := by
  obtain ⟨request, hrequest, hcompleted⟩ :
      ∃ request ∈ (runCalls Database.empty Sample.approvedTwice).workflowRequests,
        request.status = .completed := by
    decide +kernel
  exact ⟨request, hrequest, hcompleted, audit_ledger_exact Sample.approvedTwice request hrequest⟩

end WorkflowPlatform
