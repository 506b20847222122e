import WorkflowPlatform.Foundation.Trail
import WorkflowPlatform.Ledger.Requests

/-! # The state history of a request

The history rows of a request are a trail of the state machine from CREATED to the
status of the request. A request in progress has the one row of its start; a
completed one has two more, by way of the verdict of its last decision.
-/

namespace WorkflowPlatform

open Python WorkflowEngine

/-- The decided executions of a request, in the order they were opened. -/
def Database.decidedExecutions (db : Database) (requestId : Uuid) : List RequestStep :=
  (db.executions requestId).filter (·.completedAt.isSome)

/-- A hop of the state machine. -/
def Hops (fromState toState : RequestStatus) : Prop := toState ∈ stateTransitions fromState

/-- The statuses a history row leads from and to. -/
def RequestStateHistory.hop (row : RequestStateHistory) : Option RequestStatus × RequestStatus :=
  (row.fromStatus, row.toStatus)

/-- The history rows record a log of hops. -/
def Database.Records (db : Database) (requestId : Uuid)
    (log : List (RequestStatus × RequestStatus)) : Prop :=
  (db.history requestId).map (·.hop) = log.map fun hop => (some hop.1, hop.2)

/-- The history of a request replays to its status. -/
structure Replays (db : Database) (request : WorkflowRequest) : Prop where
  starts : ∃ row, (db.history request.id).head? = some row ∧ row.fromStatus = some .created
  chained : (db.history request.id).IsChain fun row next => next.fromStatus = some row.toStatus
  listed : ∀ row ∈ db.history request.id, ∃ fromStatus, row.fromStatus = some fromStatus ∧
    row.toStatus ∈ stateTransitions fromStatus ∧ row.toStatus ≠ fromStatus
  ends : ∃ row, (db.history request.id).getLast? = some row ∧ row.toStatus = request.status
  completed : request.status = .completed → ∃ last verdict,
    (db.decidedExecutions request.id).getLast? = some last ∧
    (db.history request.id).map (·.hop) =
      [(some .created, .inProgress), (some .inProgress, verdict), (some verdict, .completed)] ∧
    (verdict = .approved ↔ last.status = .approved) ∧
    (last.status ≠ .approved → verdict = .rejected)

/-! ## The hops of the state machine -/

/-- No status is listed as its own successor. -/
theorem Hops.ne {fromState toState : RequestStatus} (hhops : Hops fromState toState) :
    toState ≠ fromState := by
  rintro rfl
  cases toState <;> simp [Hops, stateTransitions] at hhops

theorem hops_verdictOf (outcome : String) :
    Hops .inProgress (verdictOf outcome) ∧ Hops (verdictOf outcome) .completed := by
  unfold verdictOf
  split <;> simp [Hops, stateTransitions]

theorem verdictOf_eq_approved_iff {status : StepStatus} :
    verdictOf status.value = .approved ↔ status = .approved := by
  cases status <;> simp [verdictOf, StepStatus.value]

theorem verdictOf_eq_rejected {status : StepStatus} (hstatus : status ≠ .approved) :
    verdictOf status.value = .rejected := by
  cases status <;> simp_all [verdictOf, StepStatus.value]

/-! ## Trails in the history -/

/-- What the history of a request records. -/
inductive Recorded (db : Database) (request : WorkflowRequest) : Prop
  | inProgress (hstatus : request.status = .inProgress)
      (hrecords : db.Records request.id [(.created, .inProgress)])
  | completed (last : RequestStep) (hstatus : request.status = .completed)
      (hlast : (db.decidedExecutions request.id).getLast? = some last)
      (hrecords : db.Records request.id [(.created, .inProgress),
        (.inProgress, verdictOf last.status.value), (verdictOf last.status.value, .completed)])

variable {db db' : Database} {request : WorkflowRequest}

/-- A request has a trail of the state machine to its status. -/
theorem Recorded.trail (hrecorded : Recorded db request) :
    ∃ log, db.Records request.id log ∧ log ≠ [] ∧ Trail Hops .created log request.status := by
  have hstart : Trail Hops .created [(.created, .inProgress)] .inProgress :=
    .hop .nil (by simp [Hops, stateTransitions])
  cases hrecorded with
  | inProgress hstatus hrecords => exact ⟨_, hrecords, by simp, hstatus ▸ hstart⟩
  | completed last hstatus hlast hrecords =>
      obtain ⟨hverdict, hcompleted⟩ := hops_verdictOf last.status.value
      refine ⟨_, hrecords, by simp, ?_⟩
      rw [hstatus]
      exact (hstart.hop hverdict).hop hcompleted

/-- The last decided execution gives the verdict, and the rows are the three of a
completed request. -/
theorem Recorded.verdict (hrecorded : Recorded db request)
    (hcompleted : request.status = .completed) :
    ∃ last verdict, (db.decidedExecutions request.id).getLast? = some last ∧
      (db.history request.id).map (·.hop) =
        [(some .created, .inProgress), (some .inProgress, verdict), (some verdict, .completed)] ∧
      (verdict = .approved ↔ last.status = .approved) ∧
      (last.status ≠ .approved → verdict = .rejected) := by
  cases hrecorded with
  | inProgress hstatus hrecords =>
      rw [hstatus] at hcompleted
      cases hcompleted
  | completed last hstatus hlast hrecords =>
      exact ⟨last, verdictOf last.status.value, hlast, hrecords, verdictOf_eq_approved_iff,
        verdictOf_eq_rejected⟩

theorem Recorded.replays (hrecorded : Recorded db request) : Replays db request := by
  obtain ⟨log, hrecords, hnonempty, htrail⟩ := hrecorded.trail
  rw [Database.Records] at hrecords
  exact {
    starts := by
      have hheads := congrArg List.head? hrecords
      rw [List.head?_map, List.head?_map] at hheads
      obtain ⟨hop, hhop⟩ := Option.isSome_iff_exists.mp (List.isSome_head?.mpr hnonempty)
      rw [hhop, Option.map_some] at hheads
      obtain ⟨row, hrow, heq⟩ := Option.map_eq_some_iff.mp hheads
      refine ⟨row, hrow, ?_⟩
      rw [← htrail.eq_of_head? hhop]
      exact congrArg Prod.fst heq
    chained := by
      have hchain : ((db.history request.id).map (·.hop)).IsChain
          fun row next => next.1 = some row.2 := by
        rw [hrecords, List.isChain_map]
        exact htrail.isChain.imp fun _ _ hnext => congrArg some hnext
      exact (List.isChain_map _).mp hchain
    listed := by
      intro row hrow
      have hhop : row.hop ∈ (db.history request.id).map (·.hop) := List.mem_map_of_mem hrow
      rw [hrecords] at hhop
      obtain ⟨hop, hmem, heq⟩ := List.mem_map.mp hhop
      obtain ⟨hfrom, hto⟩ := Prod.mk.inj heq
      have hallowed : Hops hop.1 hop.2 := htrail.allowed_of_mem hmem
      exact ⟨hop.1, hfrom.symm, hto ▸ hallowed, hto ▸ hallowed.ne⟩
    ends := by
      have hlasts := congrArg List.getLast? hrecords
      rw [List.getLast?_map, List.getLast?_map] at hlasts
      obtain ⟨hop, hhop⟩ := Option.isSome_iff_exists.mp (List.getLast?_isSome.mpr hnonempty)
      rw [hhop, Option.map_some] at hlasts
      obtain ⟨row, hrow, heq⟩ := Option.map_eq_some_iff.mp hlasts
      refine ⟨row, hrow, ?_⟩
      rw [← htrail.eq_of_getLast? hhop]
      exact congrArg Prod.snd heq
    completed := hrecorded.verdict }

/-! ## Decided executions -/

theorem decidedExecutions_of_active {decided : List RequestStep} {exec : RequestStep}
    (hactive : Active db request decided exec) : db.decidedExecutions request.id = decided := by
  rw [Database.decidedExecutions, hactive.executions_eq, List.filter_append,
    List.filter_eq_self.mpr hactive.decided_closed]
  simp [hactive.untouched.completedAt_none]

theorem decidedExecutions_of_finished (hfinished : Finished db request) :
    db.decidedExecutions request.id = db.executions request.id :=
  List.filter_eq_self.mpr hfinished.executions_closed

/-! ## The histories that calls write -/

/-- Marks leave the decided executions decided. -/
theorem decidedExecutions_marked (marked : List Uuid) {requestId : Uuid}
    (hexecutions : db'.executions requestId = (db.executions requestId).map (·.markedIn marked)) :
    db'.decidedExecutions requestId = (db.decidedExecutions requestId).map (·.markedIn marked) := by
  rw [Database.decidedExecutions, hexecutions, List.filter_map, Database.decidedExecutions]
  congr 1
  apply List.filter_congr
  intro exec _
  exact congrArg Option.isSome (exec.markedIn_completedAt marked)

/-- A request that is left alone keeps what its history records. -/
theorem Recorded.of_leftAlone {call : Call} (halone : LeftAlone call db db' request)
    (hrecorded : Recorded db request) : Recorded db' request := by
  obtain ⟨marked, hexecutions⟩ := halone.executions_marked
  cases hrecorded with
  | inProgress hstatus hrecords =>
      refine .inProgress hstatus ?_
      rw [Database.Records, halone.history_kept]
      exact hrecords
  | completed last hstatus hlast hrecords =>
      refine .completed (last.markedIn marked) hstatus ?_ ?_
      · rw [decidedExecutions_marked marked hexecutions, List.getLast?_map, hlast, Option.map_some]
      · rw [Database.Records, halone.history_kept, last.markedIn_status]
        exact hrecords

theorem recorded_started {env : Env} (hlogs : LogsFresh db) (workflowId requesterId : Uuid)
    (data : Dict) (first : WorkflowStep) (deadline : DateTime) :
    Recorded (startedAt env db workflowId requesterId data first deadline)
      (startedRequest env workflowId requesterId data first db.nextId) := by
  refine .inProgress rfl ?_
  have hhistory : (startedAt env db workflowId requesterId data first deadline).history db.nextId =
      db.history db.nextId ++ [historyRow env db.nextId .created .inProgress requesterId
        "Workflow initiation" (db.nextId + 1)] := by
    simp [Database.history, startedAt, List.filter_append, historyRow]
  rw [hlogs.history_nil, List.nil_append] at hhistory
  change List.map _ (Database.history _ db.nextId) = _
  rw [hhistory]
  rfl

/-- An active request has the one row of its start. -/
theorem Recorded.records_of_active (hrecorded : Recorded db request) {decided : List RequestStep}
    {exec : RequestStep} (hactive : Active db request decided exec) :
    db.Records request.id [(.created, .inProgress)] := by
  cases hrecorded with
  | inProgress hstatus hrecords => exact hrecords
  | completed last hstatus hlast hrecords =>
      rw [hactive.status_eq] at hstatus
      cases hstatus

section Decided

variable {env : Env} {user : User} {outcome : String} {context : Option Dict}
  {decided : List RequestStep} {exec : RequestStep} {status : Option StepStatus}

theorem recorded_movedOn (hrecorded : Recorded db request)
    (hactive : Active db request decided exec) (nextStep : WorkflowStep) (deadline : DateTime) :
    Recorded (movedOn env db request exec user outcome context status nextStep deadline)
      (movedRequest request nextStep) := by
  rw [movedRequest_eq]
  exact .inProgress hactive.status_eq (hrecorded.records_of_active hactive)

/-- All executions of a request are decided once its last one is. -/
theorem decidedExecutions_completed (hdb : WellFormed db)
    (hactive : Active db request decided exec) :
    (completed env db request exec user outcome context status).decidedExecutions request.id =
      decided ++ [closedExecution env exec user outcome context status] := by
  apply (congrArg (List.filter _) (executions_closedSteps hdb hactive)).trans
  exact List.filter_eq_self.mpr (decided_closed_concat hactive)

theorem recorded_completed (hdb : WellFormed db) (hrecorded : Recorded db request)
    (hactive : Active db request decided exec)
    (hstatus : (decisionOf env exec user outcome context).storedStatus? = some status) :
    Recorded (completed env db request exec user outcome context status)
      (completedRequest env request) := by
  have hrecords := hrecorded.records_of_active hactive
  have houtcome : (closedExecution env exec user outcome context status).status.value = outcome :=
    storedStatus?_eq_some hstatus
  refine .completed (closedExecution env exec user outcome context status) rfl ?_ ?_
  · refine (congrArg List.getLast? (decidedExecutions_completed hdb hactive)).trans ?_
    exact List.getLast?_concat
  · rw [Database.Records] at hrecords
    rw [houtcome]
    change List.map _ (Database.history _ request.id) = _
    rw [history_completed, List.map_append, hrecords]
    simp [historyRow, RequestStateHistory.hop, hactive.status_eq]

end Decided

/-! ## Every run -/

theorem recorded_runCalls (calls : List Call) :
    ∀ request ∈ (runCalls Database.empty calls).workflowRequests,
      Recorded (runCalls Database.empty calls) request := by
  refine requests_runCalls Recorded ?_ calls
  intro db call request' hdb hlogs hall heffect
  generalize call.perform db = db' at heffect ⊢
  cases heffect with
  | alone hrequest halone => exact (hall request' hrequest).of_leftAlone halone
  | started env workflowId requesterId data first deadline hdb' hrequest' =>
      rw [hdb', hrequest']
      exact recorded_started hlogs workflowId requesterId data first deadline
  | moved env user outcome context request decided exec status nextStep deadline hrequest hactive
      hstatus hdb' hrequest' =>
      rw [hdb', hrequest']
      exact recorded_movedOn (hall request hrequest) hactive nextStep deadline
  | finished env user outcome context request decided exec status hrequest hactive hstatus hdb'
      hrequest' =>
      rw [hdb', hrequest']
      exact recorded_completed hdb (hall request hrequest) hactive hstatus

theorem Reachable.recorded (hreachable : Reachable db) :
    ∀ request ∈ db.workflowRequests, Recorded db request := by
  obtain ⟨calls, rfl⟩ := hreachable
  exact recorded_runCalls calls

/-- The state history of every request replays to its status. -/
theorem history_replays (calls : List Call) :
    ∀ request ∈ (runCalls Database.empty calls).workflowRequests,
      Replays (runCalls Database.empty calls) request :=
  fun request hrequest => (recorded_runCalls calls request hrequest).replays

theorem history_replays_approved :
    ∃ request ∈ (runCalls Database.empty Sample.approvedTwice).workflowRequests,
      request.status = .completed ∧
      Replays (runCalls Database.empty Sample.approvedTwice) request := by
  obtain ⟨request, hrequest, hcompleted⟩ :
      ∃ request ∈ (runCalls Database.empty Sample.approvedTwice).workflowRequests,
        request.status = .completed := by
    decide +kernel
  exact ⟨request, hrequest, hcompleted, history_replays Sample.approvedTwice request hrequest⟩

end WorkflowPlatform
