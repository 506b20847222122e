import WorkflowPlatform.Monitoring.Scan
import WorkflowPlatform.Deciding.Target

/-! # Decided work and the monitor

The engine takes an execution for decided when its completion time is set, the
monitor when its status is neither PENDING nor IN_PROGRESS. The two agree as long
as no decision has one of these two as its outcome.
-/

namespace WorkflowPlatform

open Python WorkflowEngine SLAMonitor

/-! ## Decisive calls -/

/-- An outcome other than the statuses of undecided work. -/
def DecisiveOutcome (outcome : String) : Prop := outcome ≠ "PENDING" ∧ outcome ≠ "IN_PROGRESS"

/-- A call that decides by a decisive outcome, if it decides at all. -/
def Decisive (call : Call) : Prop := ∀ outcome ∈ call.outcome?, DecisiveOutcome outcome

/-- Every decision a run commits is decisive. -/
def DecisiveRun (calls : List Call) : Prop :=
  SerialRun.EachStep Call.perform (fun db call => call.accepted db = true → Decisive call)
    Database.empty calls

/-- The clock does not run backwards from one call to the next. -/
def Chronological (calls : List Call) : Prop :=
  calls.Pairwise fun earlier later => ∀ first second,
    earlier.env.utcnow first ≤ later.env.utcnow second

/-- A status the monitor takes for undecided. -/
def Undecided (status : StepStatus) : Prop := status = .pending ∨ status = .inProgress

theorem undecided_iff_value {status : StepStatus} :
    Undecided status ↔ ¬DecisiveOutcome status.value := by
  cases status <;> simp [Undecided, DecisiveOutcome, StepStatus.value]

variable {db db' : Database} {call : Call}

/-! ## Where rows come from -/

/-- The rows a call leaves are older ones, undecided new ones, the one it decided, or
overdue ones it marked. -/
inductive Origin (db : Database) (call : Call) (row : RequestStep) : Prop
  | kept (hrow : row ∈ db.requestSteps)
  | opened (hcompleted : row.completedAt = none) (hunmarked : row.isSlaBreached = false)
  | decided (before : RequestStep) (hbefore : before ∈ db.requestSteps)
      (hopen : before.completedAt = none) (hsame : SameSchedule before row)
      (hcompleted : row.completedAt = some (call.env.utcnow 0))
      (hdecisive : (call.accepted db = true → Decisive call) → ¬Undecided row.status)
  | marked (before : RequestStep) (hbefore : before ∈ db.requestSteps)
      (hrow : row = { before with isSlaBreached := true })
      (hoverdue : overdue (call.env.utcnow 0) before = true)

theorem origin_decided (hdb : WellFormed db) {requestId : Uuid} {user : User} {outcome : String}
    {context : Option Dict} {request : WorkflowRequest} {exec : RequestStep}
    {status : Option StepStatus} (haccepts : call.accepted db = true)
    (houtcome : call.outcome? = some outcome)
    (haccepted : Accepted call.env db requestId user outcome context request exec status)
    (hrouted : Routed call.env db user outcome context request exec status db') :
    ∀ row ∈ db'.requestSteps, Origin db call row := by
  obtain ⟨hexec, -, decided, hactive⟩ :=
    hdb.active_of_openExecution haccepted.request_read haccepted.execution_open
  have hclosed : ∀ row ∈ closedSteps call.env db exec user outcome context status,
      Origin db call row := by
    intro row hrow
    rcases Keyed.mem_update.mp hrow with ⟨before, hbefore, hid, rfl⟩ | ⟨hold, -⟩
    · obtain rfl := Keyed.ext hdb.execution_keys hbefore hexec hid
      refine .decided before hbefore hactive.untouched.completedAt_none
        (sameSchedule_decision _ _ _) rfl fun hdecisive hundecided => ?_
      rw [undecided_iff_value] at hundecided
      change ¬DecisiveOutcome (status.getD before.status).value at hundecided
      rw [storedStatus?_eq_some haccepted.status_stored] at hundecided
      exact hundecided (hdecisive haccepts outcome houtcome)
    · exact .kept hold
  cases hrouted with
  | moved nextStep deadline hnext hdeadline =>
      intro row hrow
      rcases List.mem_append.mp hrow with hold | hnew
      · exact hclosed row hold
      · rw [List.mem_singleton.mp hnew]
        exact .opened rfl rfl
  | finished hnext haudited hvalid => exact hclosed

theorem origin_scan (hdb : WellFormed db) (env : Env) :
    ∀ row ∈ (scanned env db).requestSteps, Origin db (.scanForBreaches env) row := by
  unfold scanned
  split
  · exact fun row hrow => .kept hrow
  · intro row hrow
    rw [requestSteps_escalated] at hrow
    obtain ⟨before, hbefore, rfl⟩ := List.mem_map.mp hrow
    split
    · next hlisted =>
      obtain ⟨item, hitem, hid⟩ := List.mem_map.mp hlisted
      obtain ⟨hexec, hoverdue⟩ := mem_committed_scan hitem
      rw [Keyed.ext hdb.execution_keys hexec hbefore hid] at hoverdue
      exact .marked before hbefore rfl hoverdue
    · exact .kept hbefore

theorem origin_perform (hdb : WellFormed db) (call : Call) :
    ∀ row ∈ (call.perform db).requestSteps, Origin db call row := by
  have heffect := hdb.effect_perform call
  generalize call.perform db = db' at heffect ⊢
  cases heffect with
  | refused => exact fun row hrow => .kept hrow
  | defined => exact fun row hrow => .kept hrow
  | deleted env workflowId db' hdeleted =>
      obtain ⟨-, -, rfl⟩ := Database.deleteWorkflow?_eq_some hdeleted
      exact fun row hrow => .kept hrow
  | started =>
      intro row hrow
      rcases List.mem_append.mp hrow with hold | hnew
      · exact .kept hold
      · rw [List.mem_singleton.mp hnew]
        exact .opened rfl rfl
  | decided _ requestId user outcome context request exec status db' _ haccepts houtcome haccepted
      hrouted => exact origin_decided hdb haccepts houtcome haccepted hrouted
  | scanned env => exact origin_scan hdb env

/-! ## Decided executions have a decided status -/

/-- Decided executions have the status of decided ones. -/
def DecidedStatus (db : Database) : Prop :=
  ∀ exec ∈ db.requestSteps, exec.completedAt.isSome → ¬Undecided exec.status

theorem decidedStatus_perform (hdb : WellFormed db) (hstatus : DecidedStatus db)
    (hdecisive : call.accepted db = true → Decisive call) : DecidedStatus (call.perform db) := by
  intro row hrow hcompleted
  cases origin_perform hdb call row hrow with
  | kept hold => exact hstatus row hold hcompleted
  | opened hopen hunmarked =>
      rw [hopen] at hcompleted
      cases hcompleted
  | decided before hbefore hopen hsame hclosed hdecided => exact hdecided hdecisive
  | marked before hbefore heq hoverdue =>
      subst heq
      exact hstatus before hbefore hcompleted

theorem decidedStatus_of_decisiveRun {calls : List Call} (hcalls : DecisiveRun calls) :
    DecidedStatus (runCalls Database.empty calls) :=
  (SerialRun.invariant_of_eachStep (fun db => WellFormed db ∧ DecidedStatus db)
    (fun _ call hdb hdecisive => ⟨wellFormed_perform hdb.1 call,
      decidedStatus_perform hdb.1 hdb.2 hdecisive⟩) calls
    ⟨wellFormed_empty, by simp [DecidedStatus, Database.empty]⟩ hcalls).2

/-- A committed decision that is not decisive leaves a decided execution without the
status of one. -/
theorem exists_undecided_of_indecisive (hdb : WellFormed db) (haccepts : call.accepted db = true)
    (hindecisive : ¬Decisive call) :
    ∃ row ∈ (call.perform db).requestSteps, row.completedAt.isSome ∧ Undecided row.status := by
  have hsubmission : ∀ {requestId user}, Submits requestId user call →
      ∃ row ∈ (call.perform db).requestSteps, row.completedAt.isSome ∧ Undecided row.status := by
    intro requestId user hsubmits
    rcases submits_cases hsubmits db with ⟨hrefused, -⟩ | ⟨-, outcome, context, houtcome, hdecided⟩
    · rw [haccepts] at hrefused
      cases hrefused
    · obtain ⟨request, exec, status, haccepted, hrouted⟩ := decided_iff.mp hdecided
      obtain ⟨hexec, -, -, -⟩ :=
        hdb.active_of_openExecution haccepted.request_read haccepted.execution_open
      have hundecided : Undecided
          (closedExecution call.env exec user outcome context status).status := by
        rw [undecided_iff_value]
        change ¬DecisiveOutcome (status.getD exec.status).value
        rw [storedStatus?_eq_some haccepted.status_stored]
        intro hdecisive
        apply hindecisive
        intro other hother
        rwa [← Option.some.inj (houtcome.symm.trans hother)]
      have hmem : closedExecution call.env exec user outcome context status ∈
          closedSteps call.env db exec user outcome context status :=
        Keyed.mem_update.mpr (.inl ⟨exec, hexec, rfl, rfl⟩)
      refine ⟨_, ?_, rfl, hundecided⟩
      generalize call.perform db = after at hrouted
      cases hrouted with
      | moved nextStep deadline hnext hdeadline => exact List.mem_append_left _ hmem
      | finished hnext haudited hvalid => exact hmem
  have hnever : call.outcome? = none → False := fun hnone =>
    hindecisive fun outcome houtcome => by simp [hnone] at houtcome
  cases call with
  | processStep env requestId user outcome context =>
      exact hsubmission (.process env outcome context)
  | makeDecision env requestId user payload => exact hsubmission (.decide env payload)
  | createWorkflow => exact (hnever rfl).elim
  | deleteWorkflow => exact (hnever rfl).elim
  | startWorkflow => exact (hnever rfl).elim
  | scanForBreaches => exact (hnever rfl).elim

/-- What a decision leaves behind stays, so one that is not decisive shows in every
later state. -/
theorem decisiveRun_of_decidedStatus {calls : List Call}
    (hstatus : DecidedStatus (runCalls Database.empty calls)) : DecisiveRun calls := by
  apply SerialRun.eachStep_iff.mpr
  intro before call rest hcalls haccepts
  by_contra hindecisive
  have hdb := wellFormed_runCalls wellFormed_empty before
  obtain ⟨row, hrow, hcompleted, hundecided⟩ :=
    exists_undecided_of_indecisive hdb haccepts hindecisive
  have hlast : runCalls Database.empty calls =
      runCalls (call.perform (runCalls Database.empty before)) rest := by
    rw [hcalls, runCalls, SerialRun.after_append, SerialRun.after_cons]
  rw [hlast] at hstatus
  obtain ⟨row', hrow', hfollows⟩ :=
    (continues_runCalls (wellFormed_perform hdb call) rest).executions row hrow
  have hkept := hfollows.decided hcompleted
  exact hstatus row' hrow' (hkept.completedAt ▸ hcompleted) (hkept.status ▸ hundecided)

/-! ## What a scan escalates -/

/-- What a scan escalates is undecided, overdue and was not escalated before. -/
def EscalatesOverdue (db : Database) : Prop :=
  ∀ env, ∀ exec ∈ db.requestSteps,
    addedEscalations db ((Call.scanForBreaches env).perform db) exec ≠ [] →
      exec.completedAt = none ∧
      (∃ step ∈ db.workflowSteps, step.id = exec.stepId ∧ ∃ started deadline,
        exec.startedAt = some started ∧ exec.deadline = some deadline ∧
          started.addHours step.slaHours = some deadline ∧ deadline < env.utcnow 0) ∧
      ∀ escalation ∈ db.slaEscalations, escalation.requestStepId ≠ exec.id

theorem overdue_of_escalated (hdb : WellFormed db) {env : Env} {exec : RequestStep}
    (hexec : exec ∈ db.requestSteps)
    (hadded : addedEscalations db ((Call.scanForBreaches env).perform db) exec ≠ []) :
    overdue (env.utcnow 0) exec = true := by
  rw [perform_scanForBreaches, scanned] at hadded
  split at hadded
  · simp [addedEscalations] at hadded
  · rw [← List.length_pos_iff, length_addedEscalations, List.count_pos_iff] at hadded
    obtain ⟨item, hitem, hid⟩ := List.mem_map.mp hadded
    obtain ⟨hmem, hoverdue⟩ := mem_committed_scan hitem
    rwa [Keyed.ext hdb.execution_keys hmem hexec hid] at hoverdue

theorem undecided_of_overdue {now : DateTime} {exec : RequestStep}
    (hoverdue : overdue now exec = true) : Undecided exec.status := by
  simp only [overdue, Bool.and_eq_true, Bool.or_eq_true, decide_eq_true_eq] at hoverdue
  exact hoverdue.1.1

theorem escalatesOverdue_of_decidedStatus (hdb : WellFormed db) (hstatus : DecidedStatus db) :
    EscalatesOverdue db := by
  intro env exec hexec hadded
  have hoverdue := overdue_of_escalated hdb hexec hadded
  refine ⟨?_, ?_, not_escalated_of_unmarked hdb hexec (unmarked_of_overdue hoverdue)⟩
  · by_contra hcompleted
    exact hstatus exec hexec (Option.isSome_iff_ne_none.mpr hcompleted)
      (undecided_of_overdue hoverdue)
  · obtain ⟨step, hstep, hid, started, deadline, hstarted, hdeadline, hadd⟩ :=
      hdb.scheduled exec hexec
    obtain ⟨due, hdue, hlt⟩ := deadline_of_overdue hoverdue
    obtain rfl := Option.some.inj (hdeadline.symm.trans hdue)
    exact ⟨step, hstep, hid, started, deadline, hstarted, hdeadline, hadd, hlt⟩

/-! ## What was decided in time -/

/-- What was decided before its deadline is not marked. -/
def TimelyUnmarked (db : Database) : Prop :=
  ∀ exec ∈ db.requestSteps, ∀ completed deadline, exec.completedAt = some completed →
    exec.deadline = some deadline → completed < deadline → exec.isSlaBreached = false

/-- Marked executions are late: their deadline lies before some clock reading of the
run, and before their decision. -/
def MarkedLate (calls : List Call) (db : Database) : Prop :=
  ∀ exec ∈ db.requestSteps, exec.isSlaBreached = true → ∀ deadline ∈ exec.deadline,
    (∃ call ∈ calls, deadline < call.env.utcnow 0) ∧
      ∀ completed ∈ exec.completedAt, deadline < completed

theorem markedLate_concat {calls : List Call} (hdb : WellFormed db) (hstatus : DecidedStatus db)
    (hlate : MarkedLate calls db)
    (hclock : ∀ earlier ∈ calls, earlier.env.utcnow 0 ≤ call.env.utcnow 0) :
    MarkedLate (calls ++ [call]) (call.perform db) := by
  have hlonger : ∀ {deadline : DateTime}, (∃ call ∈ calls, deadline < call.env.utcnow 0) →
      ∃ other ∈ calls ++ [call], deadline < other.env.utcnow 0 := by
    rintro deadline ⟨earlier, hearlier, hlt⟩
    exact ⟨earlier, List.mem_append_left _ hearlier, hlt⟩
  intro row hrow hmarked deadline hdeadline
  cases origin_perform hdb call row hrow with
  | kept hold =>
      obtain ⟨hpast, hdecided⟩ := hlate row hold hmarked deadline hdeadline
      exact ⟨hlonger hpast, hdecided⟩
  | opened hopen hunmarked =>
      rw [hunmarked] at hmarked
      cases hmarked
  | decided before hbefore hopen hsame hclosed hdecided =>
      obtain ⟨hpast, -⟩ := hlate before hbefore (hsame.isSlaBreached ▸ hmarked) deadline
        (hsame.deadline ▸ hdeadline)
      refine ⟨hlonger hpast, ?_⟩
      rw [hclosed]
      rintro _ ⟨⟩
      obtain ⟨earlier, hearlier, hlt⟩ := hpast
      exact Nat.lt_of_lt_of_le hlt (hclock earlier hearlier)
  | marked before hbefore heq hoverdue =>
      subst heq
      obtain ⟨due, hdue, hlt⟩ := deadline_of_overdue hoverdue
      obtain rfl := Option.some.inj (hdue.symm.trans hdeadline)
      refine ⟨⟨call, List.mem_append_right _ (List.mem_singleton_self _), hlt⟩, ?_⟩
      intro completed hcompleted
      exact absurd (undecided_of_overdue hoverdue)
        (hstatus before hbefore (Option.isSome_iff_exists.mpr ⟨completed, hcompleted⟩))

theorem markedLate_run {calls : List Call} (hcalls : DecisiveRun calls)
    (hclock : Chronological calls) : MarkedLate calls (runCalls Database.empty calls) := by
  induction calls using List.reverseRecOn with
  | nil => simp [MarkedLate, Database.empty]
  | append_singleton before call ih =>
      have hbefore : DecisiveRun before := (SerialRun.eachStep_append.mp hcalls).1
      obtain ⟨hearlier, -, hlast⟩ := List.pairwise_append.mp hclock
      rw [runCalls, SerialRun.after_concat]
      exact markedLate_concat (wellFormed_runCalls wellFormed_empty before)
        (decidedStatus_of_decisiveRun hbefore) (ih hbefore hearlier)
        fun earlier hmem => hlast earlier hmem call (List.mem_singleton_self _) 0 0

theorem timelyUnmarked_of_markedLate {calls : List Call} (hlate : MarkedLate calls db) :
    TimelyUnmarked db := by
  intro exec hexec completed deadline hcompleted hdeadline htimely
  by_contra hmarked
  have hlt := (hlate exec hexec (by simpa using hmarked) deadline hdeadline).2 completed hcompleted
  exact lt_asymm (a := deadline.micros) hlt htimely

/-! ## Runs -/

/-- Decided work is neither reopened nor escalated in the state a run leads to. -/
def DecidedWorkRests (calls : List Call) : Prop :=
  let db := runCalls Database.empty calls
  DecidedStatus db ∧ EscalatesOverdue db ∧ (Chronological calls → TimelyUnmarked db)

/-- Decided work rests after exactly the runs that commit no decision with the outcome
PENDING or IN_PROGRESS. -/
theorem decided_work_rests_iff (calls : List Call) :
    DecidedWorkRests calls ↔ DecisiveRun calls := by
  constructor
  · rintro ⟨hstatus, -, -⟩
    exact decisiveRun_of_decidedStatus hstatus
  · intro hcalls
    have hstatus := decidedStatus_of_decisiveRun hcalls
    exact ⟨hstatus,
      escalatesOverdue_of_decidedStatus (wellFormed_runCalls wellFormed_empty calls) hstatus,
      fun hclock => timelyUnmarked_of_markedLate (markedLate_run hcalls hclock)⟩

/-- A review decided with the outcome PENDING. -/
def pendingDecision : List Call :=
  Sample.opening Sample.approvals [] ++
    [.processStep (.calm Sample.noon) 5 Sample.admin "PENDING" none]

/-- Decided at noon of the first day, the review is still pending. -/
theorem decided_work_stays_pending : ¬∀ calls, DecidedWorkRests calls := by
  intro hrests
  have hstatus := (hrests pendingDecision).1
  have hpending : ∃ exec ∈ (runCalls Database.empty pendingDecision).requestSteps,
      exec.completedAt.isSome = true ∧ exec.status = .pending := by
    decide +kernel
  obtain ⟨exec, hexec, hcompleted, heq⟩ := hpending
  exact hstatus exec hexec hcompleted (.inl heq)

end WorkflowPlatform
