import WorkflowPlatform.Lifecycle.Decisions

/-! # Reachable states

Scans and changes of the definitions keep states well formed too, so every state
that calls lead to is well formed.
-/

namespace WorkflowPlatform

open Python WorkflowEngine SLAMonitor Batch

variable {db : Database}

/-! ## Escalating -/

/-- An escalation changes nothing that an execution records. -/
theorem executions_escalateOne (env : Env) (db : Database) (item : Positioned) (requestId : Uuid) :
    (escalateOne env db item).executions requestId = Keyed.update (·.id) item.2.id
      (fun row => { row with isSlaBreached := true }) (db.executions requestId) := by
  have hkeep : ∀ row : RequestStep,
      decide ({ row with isSlaBreached := true }.requestId = requestId) =
      decide (row.requestId = requestId) := fun _ => rfl
  exact Keyed.filter_update hkeep _

theorem sameDefinitions_escalateOne (env : Env) (db : Database) (item : Positioned) :
    SameDefinitions db (escalateOne env db item) :=
  ⟨rfl, rfl, rfl, Nat.le_add_right _ _⟩

/-- The first escalation of an execution keeps states well formed. -/
theorem wellFormed_escalateOne (hdb : WellFormed db) (env : Env) {item : Positioned}
    (hmem : ∃ exec ∈ db.requestSteps, exec.id = item.2.id)
    (hfirst : ∀ escalation ∈ db.slaEscalations, escalation.requestStepId ≠ item.2.id) :
    WellFormed (escalateOne env db item) := by
  have hsame := sameDefinitions_escalateOne env db item
  have hrows : ∀ exec ∈ (escalateOne env db item).requestSteps, ∃ before ∈ db.requestSteps,
      exec = before ∧ before.id ≠ item.2.id ∨
        exec = { before with isSlaBreached := true } ∧ before.id = item.2.id := by
    intro exec hexec
    rcases Keyed.mem_update.mp hexec with ⟨before, hbefore, hid, rfl⟩ | ⟨hold, hne⟩
    · exact ⟨before, hbefore, .inr ⟨rfl, hid⟩⟩
    · exact ⟨exec, hold, .inl ⟨rfl, hne⟩⟩
  exact {
    toWellDefined := hsame.wellDefined hdb.toWellDefined
    request_keys := hdb.request_keys
    request_fresh := fun request hrequest =>
      (hdb.request_fresh request hrequest).trans_le hsame.nextId_le
    request_workflow := hdb.request_workflow
    execution_keys := by
      have hids : (Keyed.update (·.id) item.2.id (fun row : RequestStep =>
          { row with isSlaBreached := true }) db.requestSteps).map (·.id) =
            db.requestSteps.map (·.id) := by
        refine Keyed.map_key_update ?_ _
        intro row
        rfl
      exact hids.symm ▸ hdb.execution_keys
    execution_fresh := by
      intro exec hexec
      obtain ⟨before, hbefore, ⟨rfl, -⟩ | ⟨rfl, -⟩⟩ := hrows exec hexec
      · exact (hdb.execution_fresh exec hbefore).trans_le hsame.nextId_le
      · exact (hdb.execution_fresh before hbefore).trans_le hsame.nextId_le
    execution_request := by
      intro exec hexec
      obtain ⟨before, hbefore, ⟨rfl, -⟩ | ⟨rfl, -⟩⟩ := hrows exec hexec
      · exact hdb.execution_request exec hbefore
      · exact hdb.execution_request before hbefore
    scheduled := by
      intro exec hexec
      obtain ⟨before, hbefore, ⟨rfl, -⟩ | ⟨rfl, -⟩⟩ := hrows exec hexec
      · exact hsame.scheduled (hdb.scheduled exec hbefore)
      · exact hsame.scheduled (hdb.scheduled before hbefore)
    escalation_keys := Keyed.nodup_concat hdb.escalation_keys hfirst
    escalation_execution := by
      intro escalation hescalation
      rcases List.mem_append.mp hescalation with hold | hnew
      · obtain ⟨exec, hexec, hid, hbreached⟩ := hdb.escalation_execution escalation hold
        have hne : exec.id ≠ item.2.id := hid ▸ hfirst escalation hold
        exact ⟨exec, Keyed.mem_update.mpr (.inr ⟨hexec, hne⟩), hid, hbreached⟩
      · obtain ⟨exec, hexec, hid⟩ := hmem
        refine ⟨{ exec with isSlaBreached := true },
          Keyed.mem_update.mpr (.inl ⟨exec, hexec, hid, rfl⟩), ?_, rfl⟩
        rw [List.mem_singleton.mp hnew]
        exact hid
    breach_escalated := by
      intro exec hexec hbreached
      obtain ⟨before, hbefore, ⟨rfl, -⟩ | ⟨rfl, hid⟩⟩ := hrows exec hexec
      · obtain ⟨escalation, hescalation, hid⟩ := hdb.breach_escalated exec hbefore hbreached
        exact ⟨escalation, List.mem_append_left _ hescalation, hid⟩
      · exact ⟨_, List.mem_append_right _ (List.mem_singleton_self _), hid.symm⟩
    conducted := by
      intro request hrequest
      refine (hdb.conducted request hrequest).congr _
        (executions_escalateOne env db item request.id)
        (fun exec => ?_) (hsame.keepsWorkflow _) hdb.toWellDefined
      split
      · exact ⟨rfl, rfl, rfl, rfl⟩
      · exact .refl exec }

/-- Escalating several executions for the first time keeps states well formed. -/
theorem wellFormed_escalated (env : Env) {items : List Positioned}
    (hkeys : (items.map (·.2.id)).Nodup) {db : Database} (hdb : WellFormed db)
    (hmem : ∀ item ∈ items, ∃ exec ∈ db.requestSteps, exec.id = item.2.id)
    (hfirst : ∀ item ∈ items, ∀ escalation ∈ db.slaEscalations,
      escalation.requestStepId ≠ item.2.id) : WellFormed (escalated env db items) := by
  induction items generalizing db with
  | nil => exact hdb
  | cons item rest ih =>
      rw [List.map_cons, List.nodup_cons] at hkeys
      refine ih hkeys.2 (wellFormed_escalateOne hdb env (hmem item List.mem_cons_self)
        (hfirst item List.mem_cons_self)) (fun other hother => ?_) (fun other hother => ?_)
      · obtain ⟨exec, hexec, hid⟩ := hmem other (List.mem_cons_of_mem _ hother)
        have hne : exec.id ≠ item.2.id := by
          rw [hid]
          intro heq
          exact hkeys.1 (heq ▸ List.mem_map_of_mem hother)
        exact ⟨exec, Keyed.mem_update.mpr (.inr ⟨hexec, hne⟩), hid⟩
      · intro escalation hescalation
        rcases List.mem_append.mp hescalation with hold | hnew
        · exact hfirst other (List.mem_cons_of_mem _ hother) escalation hold
        · rw [List.mem_singleton.mp hnew]
          intro heq
          have hid : item.2.id = other.2.id := heq
          exact hkeys.1 (hid ▸ List.mem_map_of_mem (f := fun item : Positioned => item.2.id) hother)

/-! ## Scanning -/

theorem overdueSteps_keys (hkeys : (db.requestSteps.map (·.id)).Nodup) (env : Env) :
    ((overdueSteps env db).map (·.id)).Nodup := by
  have hperm := (env.executionOrder.perm (db.requestSteps.filter (overdue (env.utcnow 0)))).map
    (fun exec : RequestStep => exec.id)
  exact hperm.nodup_iff.mpr (hkeys.sublist (List.filter_sublist.map _))

/-- An unmarked execution was not escalated before. -/
theorem not_escalated_of_unmarked (hdb : WellFormed db) {exec : RequestStep}
    (hexec : exec ∈ db.requestSteps) (hunmarked : exec.isSlaBreached = false) :
    ∀ escalation ∈ db.slaEscalations, escalation.requestStepId ≠ exec.id := by
  intro escalation hescalation heq
  obtain ⟨other, hother, hid, hbreached⟩ := hdb.escalation_execution escalation hescalation
  rw [Keyed.ext hdb.execution_keys hother hexec (hid.trans heq), hunmarked] at hbreached
  cases hbreached

/-- What a scan commits comes from the overdue executions. -/
theorem mem_committed_scan {env : Env} {item : Positioned}
    (hitem : item ∈ Batch.committed (scanBatch env db)) :
    item.2 ∈ db.requestSteps ∧ overdue (env.utcnow 0) item.2 = true :=
  mem_overdueSteps.mp ((committed_execs_sublist env db).mem (List.mem_map_of_mem hitem))

theorem unmarked_of_overdue {now : DateTime} {exec : RequestStep}
    (hoverdue : overdue now exec = true) : exec.isSlaBreached = false := by
  simp only [overdue, Bool.and_eq_true, Bool.not_eq_eq_eq_not, Bool.not_true] at hoverdue
  exact hoverdue.2

/-- A scan commits no execution twice. -/
theorem committed_keys (hdb : WellFormed db) {env : Env} :
    ((committed (scanBatch env db)).map (·.2.id)).Nodup := by
  have hsublist := (committed_execs_sublist env db).map (fun exec : RequestStep => exec.id)
  rw [List.map_map] at hsublist
  exact (overdueSteps_keys hdb.execution_keys env).sublist hsublist

/-- A scan escalates some of the overdue executions, each once. -/
theorem scanned_eq_escalated (hdb : WellFormed db) (env : Env) :
    ∃ items, scanned env db = escalated env db items ∧ (items.map (·.2.id)).Nodup ∧
      ∀ item ∈ items, item.2 ∈ db.requestSteps ∧ overdue (env.utcnow 0) item.2 = true := by
  unfold scanned
  split
  · exact ⟨[], rfl, List.nodup_nil, by simp⟩
  · exact ⟨_, rfl, committed_keys hdb, fun item hitem => mem_committed_scan hitem⟩

theorem wellFormed_scanned (hdb : WellFormed db) (env : Env) : WellFormed (scanned env db) := by
  obtain ⟨items, hscanned, hkeys, hitems⟩ := scanned_eq_escalated hdb env
  rw [hscanned]
  refine wellFormed_escalated env hkeys hdb (fun item hitem => ?_) (fun item hitem => ?_)
  · exact ⟨item.2, (hitems item hitem).1, rfl⟩
  · obtain ⟨hexec, hoverdue⟩ := hitems item hitem
    exact not_escalated_of_unmarked hdb hexec (unmarked_of_overdue hoverdue)

/-! ## Changing the definitions -/

theorem wellFormed_withDefinition (hdb : WellFormed db) (payload : WorkflowCreate)
    (creatorId : Uuid) : WellFormed (WorkflowService.withDefinition db payload creatorId) := by
  have hle : db.nextId ≤ (WorkflowService.withDefinition db payload creatorId).nextId := by
    simp only [WorkflowService.withDefinition]
    lia
  exact {
    toWellDefined := WorkflowService.wellDefined_withDefinition hdb.toWellDefined payload creatorId
    request_keys := hdb.request_keys
    request_fresh := fun request hrequest => (hdb.request_fresh request hrequest).trans_le hle
    request_workflow := by
      intro request hrequest
      obtain ⟨workflow, hworkflow, hid⟩ := hdb.request_workflow request hrequest
      exact ⟨workflow, List.mem_append_left _ hworkflow, hid⟩
    execution_keys := hdb.execution_keys
    execution_fresh := fun exec hexec => (hdb.execution_fresh exec hexec).trans_le hle
    execution_request := hdb.execution_request
    scheduled := by
      intro exec hexec
      obtain ⟨step, hstep, hid, hscheduled⟩ := hdb.scheduled exec hexec
      exact ⟨step, List.mem_append_left _ hstep, hid, hscheduled⟩
    escalation_keys := hdb.escalation_keys
    escalation_execution := hdb.escalation_execution
    breach_escalated := hdb.breach_escalated
    conducted := fun request hrequest =>
      (hdb.conducted request hrequest).congr id
        (show _ = (db.executions request.id).map id from (List.map_id _).symm)
        (fun exec => .refl exec)
        (WorkflowService.keepsWorkflow_withDefinition hdb.toWellDefined payload creatorId _)
        hdb.toWellDefined }

/-- A deletion leaves the requests alone: none of them is at a step it takes away. -/
theorem workflowRequests_deleted (hdb : WellFormed db) {db' : Database} {workflowId : Uuid}
    (hdeleted : db.deleteWorkflow? workflowId = some db') :
    db'.workflowRequests = db.workflowRequests := by
  obtain ⟨hrequests, -, rfl⟩ := Database.deleteWorkflow?_eq_some hdeleted
  refine (List.map_congr_left fun request hrequest => ?_).trans (List.map_id _)
  rcases hdb.conducted request hrequest with ⟨decided, current, hactive⟩ | hfinished
  · have hstays : ¬db.HasStep workflowId current.stepId := fun hgone =>
      hrequests request hrequest
        (hdb.toWellDefined.hasStep_unique (hdb.hasStep_of_active hactive) hgone)
    simp only [hactive.currentStepId_eq, Database.mem_gone_iff, hstays, Option.filter_some,
      not_false_eq_true, decide_true, if_true, id_eq]
    rw [← hactive.currentStepId_eq]
  · simp only [hfinished.currentStepId_eq, Option.filter_none, id_eq]
    rw [← hfinished.currentStepId_eq]

theorem wellFormed_deleted (hdb : WellFormed db) {db' : Database} {workflowId : Uuid}
    (hdeleted : db.deleteWorkflow? workflowId = some db') : WellFormed db' := by
  have hsame := workflowRequests_deleted hdb hdeleted
  have hkeeps := fun {other} (hne : other ≠ workflowId) =>
    Database.keepsWorkflow_deleted hdb.toWellDefined hne hdeleted
  have hdefined := Database.wellDefined_deleted hdb.toWellDefined hdeleted
  obtain ⟨hrequests, hexecs, hdb'⟩ := Database.deleteWorkflow?_eq_some hdeleted
  have hsteps : db'.requestSteps = db.requestSteps := by rw [hdb']
  have hescalations : db'.slaEscalations = db.slaEscalations := by rw [hdb']
  have hnext : db'.nextId = db.nextId := by rw [hdb']
  exact {
    toWellDefined := hdefined
    request_keys := hsame ▸ hdb.request_keys
    request_fresh := by
      rw [hsame, hnext]
      exact hdb.request_fresh
    request_workflow := by
      intro request hrequest
      rw [hsame] at hrequest
      obtain ⟨workflow, hworkflow, hid⟩ := hdb.request_workflow request hrequest
      refine ⟨workflow, ?_, hid⟩
      rw [hdb']
      exact List.mem_filter.mpr ⟨hworkflow, by simpa [hid] using hrequests request hrequest⟩
    execution_keys := hsteps ▸ hdb.execution_keys
    execution_fresh := by
      rw [hsteps, hnext]
      exact hdb.execution_fresh
    execution_request := by
      rw [hsteps, hsame]
      exact hdb.execution_request
    scheduled := by
      intro exec hexec
      rw [hsteps] at hexec
      obtain ⟨step, hstep, hid, hscheduled⟩ := hdb.scheduled exec hexec
      have hne : step.workflowId ≠ workflowId := fun heq =>
        hexecs exec hexec ⟨step, hstep, hid, heq⟩
      refine ⟨step, ?_, hid, hscheduled⟩
      rw [hdb']
      exact List.mem_filter.mpr ⟨hstep, by simpa using hne⟩
    escalation_keys := hescalations ▸ hdb.escalation_keys
    escalation_execution := by
      rw [hescalations, hsteps]
      exact hdb.escalation_execution
    breach_escalated := by
      rw [hescalations, hsteps]
      exact hdb.breach_escalated
    conducted := by
      intro request hrequest
      rw [hsame] at hrequest
      refine (hdb.conducted request hrequest).congr id ?_ (fun exec => .refl exec)
        (hkeeps (hrequests request hrequest)) hdb.toWellDefined
      rw [List.map_id, Database.executions, hsteps, Database.executions] }

/-! ## Every call -/

/-- The invariant: no call leads out of the well-formed states. -/
theorem wellFormed_perform (hdb : WellFormed db) (call : Call) : WellFormed (call.perform db) := by
  have heffect := hdb.effect_perform call
  generalize call.perform db = db' at heffect ⊢
  cases heffect with
  | refused => exact hdb
  | defined env payload creatorId => exact wellFormed_withDefinition hdb payload creatorId
  | deleted env workflowId db' hdeleted => exact wellFormed_deleted hdb hdeleted
  | started env workflowId requesterId data workflow first deadline hworkflow hfirst hdeadline =>
      exact wellFormed_startedAt hdb requesterId data hworkflow hfirst hdeadline
  | decided _ requestId user outcome context request exec status db' _ _ _ haccepted hrouted =>
      exact wellFormed_routed hdb haccepted hrouted
  | scanned env => exact wellFormed_scanned hdb env

theorem wellFormed_runCalls (hdb : WellFormed db) (calls : List Call) :
    WellFormed (runCalls db calls) :=
  SerialRun.invariant WellFormed (fun _ call hdb => wellFormed_perform hdb call)
    calls hdb

theorem Reachable.wellFormed (hreachable : Reachable db) : WellFormed db := by
  obtain ⟨calls, rfl⟩ := hreachable
  exact wellFormed_runCalls wellFormed_empty calls

/-- What holds at first and survives every call in well-formed states holds of every
reachable state. -/
theorem Reachable.induction (property : Database → Prop) (hempty : property Database.empty)
    (hstep : ∀ db (call : Call), WellFormed db → property db → property (call.perform db))
    (hreachable : Reachable db) : property db := by
  obtain ⟨calls, rfl⟩ := hreachable
  refine (SerialRun.invariant (fun db => WellFormed db ∧ property db) ?_ calls
    ⟨wellFormed_empty, hempty⟩).2
  rintro db call ⟨hdb, hproperty⟩
  exact ⟨wellFormed_perform hdb call, hstep db call hdb hproperty⟩

theorem Reachable.runCalls (hreachable : Reachable db) (calls : List Call) :
    Reachable (runCalls db calls) := by
  obtain ⟨before, rfl⟩ := hreachable
  exact ⟨before ++ calls, (SerialRun.after_append _ _ _ _).symm⟩

end WorkflowPlatform
