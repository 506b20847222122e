import WorkflowPlatform.Ledger.Frame

/-! # One request through one call

For a single request a call does one of four things: it leaves the request alone,
starts it, moves it on to another step, or completes it. What the logs record about
requests is shown along these four.
-/

namespace WorkflowPlatform

open Python WorkflowEngine SLAMonitor

variable {db db' : Database} {call : Call}

/-! ## Logs name requests that exist -/

/-- No log mentions a request that is yet to be started. -/
structure LogsFresh (db : Database) : Prop where
  history : ∀ row ∈ db.requestStateHistory, row.requestId < db.nextId
  audit : ∀ entry ∈ db.auditLogs, ∀ requestId ∈ entry.requestId, requestId < db.nextId

theorem logsFresh_empty : LogsFresh Database.empty := by
  constructor <;> simp [Database.empty]

namespace LogsFresh

theorem history_nil (hlogs : LogsFresh db) : db.history db.nextId = [] := by
  apply List.filter_eq_nil_iff.mpr
  intro row hrow
  simpa using (hlogs.history row hrow).ne

theorem entries_nil (hlogs : LogsFresh db) : db.entries db.nextId = [] := by
  apply List.filter_eq_nil_iff.mpr
  intro entry hentry
  have hfresh := hlogs.audit entry hentry
  simp only [decide_eq_true_eq]
  intro heq
  exact (hfresh db.nextId heq).ne rfl

/-- Rows about requests that exist keep the logs fresh. -/
theorem append (hlogs : LogsFresh db) (hle : db.nextId ≤ db'.nextId)
    {rows : List RequestStateHistory} {entries : List AuditLog}
    (hhistory : db'.requestStateHistory = db.requestStateHistory ++ rows)
    (haudit : db'.auditLogs = db.auditLogs ++ entries)
    (hrows : ∀ row ∈ rows, row.requestId < db'.nextId)
    (hentries : ∀ entry ∈ entries, ∀ requestId ∈ entry.requestId, requestId < db'.nextId) :
    LogsFresh db' where
  history row hrow := by
    rw [hhistory] at hrow
    rcases List.mem_append.mp hrow with hold | hnew
    · exact (hlogs.history row hold).trans_le hle
    · exact hrows row hnew
  audit entry hentry requestId hid := by
    rw [haudit] at hentry
    rcases List.mem_append.mp hentry with hold | hnew
    · exact (hlogs.audit entry hold requestId hid).trans_le hle
    · exact hentries entry hnew requestId hid

end LogsFresh

theorem logsFresh_escalateOne (hlogs : LogsFresh db) (env : Env) {item : Positioned}
    (howner : item.2.requestId < db.nextId) : LogsFresh (escalateOne env db item) := by
  have hle : db.nextId ≤ (escalateOne env db item).nextId := Nat.le_add_right _ _
  apply hlogs.append hle (List.append_nil _).symm rfl (by simp)
  intro entry hentry requestId hid
  obtain ⟨deadline, -, rfl⟩ := Option.map_eq_some_iff.mp (Option.mem_toList.mp hentry)
  obtain rfl : item.2.requestId = requestId := Option.some.inj hid
  exact howner.trans_le (Nat.le_add_right _ _)

theorem logsFresh_routed (hlogs : LogsFresh db) {env : Env} {user : User} {outcome : String}
    {context : Option Dict} {request : WorkflowRequest} {exec : RequestStep}
    {status : Option StepStatus} (hfresh : request.id < db.nextId)
    (hrouted : Routed env db user outcome context request exec status db') : LogsFresh db' := by
  have hle := (sameDefinitions_routed hrouted).nextId_le
  obtain ⟨rows, hhistory, hrows⟩ := requestStateHistory_routed hrouted
  obtain ⟨entries, haudit, hentries⟩ := auditLogs_routed hrouted
  refine hlogs.append hle hhistory haudit (fun row hrow => ?_) fun entry hentry requestId hid => ?_
  · rw [hrows row hrow]
    exact hfresh.trans_le hle
  · rw [hentries entry hentry] at hid
    obtain rfl : request.id = requestId := Option.some.inj hid
    exact hfresh.trans_le hle

theorem logsFresh_perform (hdb : WellFormed db) (hlogs : LogsFresh db) (call : Call) :
    LogsFresh (call.perform db) := by
  have heffect := hdb.effect_perform call
  generalize call.perform db = db' at heffect ⊢
  cases heffect with
  | refused => exact hlogs
  | defined env payload creatorId =>
      refine hlogs.append ?_ (List.append_nil _).symm (List.append_nil _).symm (by simp) (by simp)
      simp only [WorkflowService.withDefinition]
      lia
  | deleted env workflowId db' hdeleted =>
      obtain ⟨-, -, rfl⟩ := Database.deleteWorkflow?_eq_some hdeleted
      exact ⟨hlogs.history, hlogs.audit⟩
  | started env workflowId requesterId data workflow first deadline =>
      refine hlogs.append (Nat.le_add_right _ _) rfl rfl ?_ ?_
      · simp [historyRow, startedAt]
      · simp [requestAudit, startedAt]
  | decided _ requestId user outcome context request exec status db' _ _ _ haccepted hrouted =>
      obtain ⟨hstored, -⟩ := hdb.request?_eq_some_iff.mp haccepted.request_read
      exact logsFresh_routed hlogs (hdb.request_fresh request hstored) hrouted
  | scanned env =>
      obtain ⟨items, hscanned, -, hitems⟩ := scanned_eq_escalated hdb env
      rw [hscanned]
      -- the owners of the items stay older than the next identifier
      refine (escalated_induction (fun middle => db.nextId ≤ middle.nextId ∧ LogsFresh middle)
        (fun middle item hitem hmiddle => ?_) ⟨le_rfl, hlogs⟩).2
      obtain ⟨request, hrequest, hid⟩ := hdb.execution_request item.2 (hitems item hitem).1
      have howner : item.2.requestId < middle.nextId :=
        (hid ▸ hdb.request_fresh request hrequest).trans_le hmiddle.1
      exact ⟨hmiddle.1.trans (Nat.le_add_right _ _), logsFresh_escalateOne hmiddle.2 env howner⟩

/-! ## The four cases -/

/-- What a call did to a request it leaves in the state. -/
inductive RequestEffect (db : Database) (call : Call) (db' : Database)
    (request' : WorkflowRequest) : Prop
  | alone (hrequest : request' ∈ db.workflowRequests) (halone : LeftAlone call db db' request')
  | started (env : Env) (workflowId requesterId : Uuid) (data : Dict) (first : WorkflowStep)
      (deadline : DateTime)
      (hdb' : db' = startedAt env db workflowId requesterId data first deadline)
      (hrequest' : request' = startedRequest env workflowId requesterId data first db.nextId)
  | moved (env : Env) (user : User) (outcome : String) (context : Option Dict)
      (request : WorkflowRequest) (decided : List RequestStep) (exec : RequestStep)
      (status : Option StepStatus) (nextStep : WorkflowStep) (deadline : DateTime)
      (hrequest : request ∈ db.workflowRequests) (hactive : Active db request decided exec)
      (hstatus : (decisionOf env exec user outcome context).storedStatus? = some status)
      (hdb' : db' = movedOn env db request exec user outcome context status nextStep deadline)
      (hrequest' : request' = movedRequest request nextStep)
  | finished (env : Env) (user : User) (outcome : String) (context : Option Dict)
      (request : WorkflowRequest) (decided : List RequestStep) (exec : RequestStep)
      (status : Option StepStatus) (hrequest : request ∈ db.workflowRequests)
      (hactive : Active db request decided exec)
      (hstatus : (decisionOf env exec user outcome context).storedStatus? = some status)
      (hdb' : db' = completed env db request exec user outcome context status)
      (hrequest' : request' = completedRequest env request)

/-- Each request of the state a call leaves is in one of the four cases. -/
theorem WellFormed.requestEffect (hdb : WellFormed db) (call : Call) :
    ∀ request' ∈ (call.perform db).workflowRequests,
      RequestEffect db call (call.perform db) request' := by
  have heffect := hdb.effect_perform call
  have hkeeps := hdb.keepsRecords call
  generalize call.perform db = db' at heffect hkeeps ⊢
  intro request' hrequest'
  cases heffect with
  | refused =>
      refine .alone hrequest' (leftAlone_of_eq ?_ rfl rfl rfl)
      exact hdb.request?_eq_some_iff.mpr ⟨hrequest', rfl⟩
  | defined env payload creatorId => exact .alone hrequest' (hkeeps.others request' hrequest' nofun)
  | deleted env workflowId db' hdeleted =>
      rw [workflowRequests_deleted hdb hdeleted] at hrequest'
      exact .alone hrequest' (hkeeps.others request' hrequest' nofun)
  | started env workflowId requesterId data workflow first deadline =>
      rcases List.mem_append.mp hrequest' with hold | hnew
      · exact .alone hold (hkeeps.others request' hold nofun)
      · exact .started env workflowId requesterId data first deadline rfl
          (List.mem_singleton.mp hnew)
  | decided _ requestId user outcome context request exec status db' hsubmits _ _ haccepted
      hrouted =>
      obtain ⟨hstored, hid⟩ := hdb.request?_eq_some_iff.mp haccepted.request_read
      obtain ⟨-, -, decided, hactive⟩ :=
        hdb.active_of_openExecution haccepted.request_read haccepted.execution_open
      have hother : request' ∈ db.workflowRequests → request'.id ≠ request.id →
          RequestEffect db call db' request' := by
        intro hold hne
        refine .alone hold (hkeeps.others request' hold ?_)
        rw [hsubmits.decides?_eq, ← hid]
        exact fun heq => hne (Option.some.inj heq).symm
      cases hrouted with
      | moved nextStep deadline hnext hdeadline =>
          rcases Keyed.mem_update.mp hrequest' with ⟨before, hbefore, heq, rfl⟩ | ⟨hold, hne⟩
          · rw [Keyed.ext hdb.request_keys hbefore hstored heq]
            exact .moved call.env user outcome context request decided exec status nextStep deadline
              hstored hactive haccepted.status_stored rfl rfl
          · exact hother hold hne
      | finished hnext haudited hvalid =>
          rcases Keyed.mem_update.mp hrequest' with ⟨before, hbefore, heq, rfl⟩ | ⟨hold, hne⟩
          · rw [Keyed.ext hdb.request_keys hbefore hstored heq]
            exact .finished call.env user outcome context request decided exec status hstored
              hactive haccepted.status_stored rfl rfl
          · exact hother hold hne
  | scanned env =>
      obtain ⟨items, hscanned, -, -⟩ := scanned_eq_escalated hdb env
      have hold : request' ∈ db.workflowRequests := by
        rw [hscanned, (requests_escalated env db items).1] at hrequest'
        exact hrequest'
      exact .alone hold (hkeeps.others request' hold nofun)

/-- A property of requests that survives each of the four cases holds of every
request after every run. -/
theorem requests_runCalls (property : Database → WorkflowRequest → Prop)
    (hstep : ∀ db call request', WellFormed db → LogsFresh db →
      (∀ request ∈ db.workflowRequests, property db request) →
      RequestEffect db call (call.perform db) request' → property (call.perform db) request')
    (calls : List Call) :
    ∀ request ∈ (runCalls Database.empty calls).workflowRequests,
      property (runCalls Database.empty calls) request := by
  have hreachable : Reachable (runCalls Database.empty calls) := ⟨calls, rfl⟩
  refine (hreachable.induction (fun db => LogsFresh db ∧
    ∀ request ∈ db.workflowRequests, property db request) ?_ ?_).2
  · exact ⟨logsFresh_empty, by simp [Database.empty]⟩
  · rintro db call hdb ⟨hlogs, hproperty⟩
    refine ⟨logsFresh_perform hdb hlogs call, ?_⟩
    intro request' hrequest'
    exact hstep db call request' hdb hlogs hproperty (hdb.requestEffect call request' hrequest')

/-- What a completion establishes, and what leaving the request alone keeps, holds of
every completed request after every run. -/
theorem completed_runCalls (property : Database → WorkflowRequest → Prop)
    (halone : ∀ db db' call request, LeftAlone call db db' request → property db request →
      property db' request)
    (hfinished : ∀ env db request exec user outcome context status,
      property (completed env db request exec user outcome context status)
        (completedRequest env request))
    (calls : List Call) :
    ∀ request ∈ (runCalls Database.empty calls).workflowRequests, request.status = .completed →
      property (runCalls Database.empty calls) request := by
  refine requests_runCalls (fun db request => request.status = .completed → property db request)
    ?_ calls
  intro db call request' hdb hlogs hall heffect
  generalize call.perform db = db' at heffect ⊢
  intro hcompleted
  cases heffect with
  | alone hrequest hleft =>
      exact halone db db' call request' hleft (hall request' hrequest hcompleted)
  | started env workflowId requesterId data first deadline hdb' hrequest' =>
      rw [hrequest'] at hcompleted
      cases hcompleted
  | moved env user outcome context request decided exec status nextStep deadline hrequest hactive
      hstatus hdb' hrequest' =>
      rw [hrequest', movedRequest_eq, hactive.status_eq] at hcompleted
      cases hcompleted
  | finished env user outcome context request decided exec status hrequest hactive hstatus hdb'
      hrequest' =>
      rw [hdb', hrequest']
      exact hfinished env db request exec user outcome context status

end WorkflowPlatform
