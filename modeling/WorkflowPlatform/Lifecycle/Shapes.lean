import WorkflowPlatform.Lifecycle.History

/-! # The two shapes of a request

In every state that calls lead to, a request is in progress at its one open
execution, or completed for good.
-/

namespace WorkflowPlatform

open Python WorkflowEngine

/-- In progress: one open execution, pending, of the current step, which belongs
to the request's workflow. -/
def InProgressShape (db : Database) (request : WorkflowRequest) : Prop :=
  request.status = .inProgress ∧ request.completedAt = none ∧
    ∃ exec, db.openExecutions request.id = [exec] ∧ exec.status = .pending ∧
      request.currentStepId = some exec.stepId ∧ db.HasStep request.workflowId exec.stepId

/-- Completed: no current step and no open execution. -/
def CompletedShape (db : Database) (request : WorkflowRequest) : Prop :=
  request.status = .completed ∧ request.completedAt.isSome ∧ request.currentStepId = none ∧
    db.openExecutions request.id = []

variable {db : Database} {request : WorkflowRequest}

theorem openExecutions_of_active {decided : List RequestStep} {current : RequestStep}
    (hactive : Active db request decided current) : db.openExecutions request.id = [current] := by
  have hnone : decided.filter (·.completedAt.isNone) = [] :=
    List.filter_eq_nil_iff.mpr fun exec hexec => by
      simpa [Option.isSome_iff_ne_none] using hactive.decided_closed exec hexec
  simp [Database.openExecutions, hactive.executions_eq, List.filter_append, hnone,
    hactive.untouched.completedAt_none]

theorem inProgressShape_of_active (hdb : WellFormed db) {decided : List RequestStep}
    {current : RequestStep} (hactive : Active db request decided current) :
    InProgressShape db request :=
  ⟨hactive.status_eq, hactive.completedAt_eq, current, openExecutions_of_active hactive,
    hactive.untouched.status_pending, hactive.currentStepId_eq, hdb.hasStep_of_active hactive⟩

theorem completedShape_of_finished (hfinished : Finished db request) :
    CompletedShape db request := by
  refine ⟨hfinished.status_eq, hfinished.completedAt_some, hfinished.currentStepId_eq, ?_⟩
  apply List.filter_eq_nil_iff.mpr
  intro exec hexec
  simpa [Option.isSome_iff_ne_none] using hfinished.executions_closed exec hexec

/-- An open execution is the current one of an active request. -/
theorem active_of_open {exec : RequestStep} (hdb : WellFormed db)
    (hrequest : request ∈ db.workflowRequests)
    (hopen : exec ∈ db.openExecutions request.id) : ∃ decided, Active db request decided exec := by
  rcases hdb.conducted request hrequest with ⟨decided, current, hactive⟩ | hfinished
  · rw [openExecutions_of_active hactive] at hopen
    exact ⟨decided, List.mem_singleton.mp hopen ▸ hactive⟩
  · obtain ⟨-, -, -, hnone⟩ := completedShape_of_finished hfinished
    rw [hnone] at hopen
    cases hopen

/-- A conducted request has one of the shapes, as its status says. -/
theorem shape_of_conducted (hdb : WellFormed db) (hconducted : Conducted db request) :
    InProgressShape db request ∨ CompletedShape db request := by
  rcases hconducted with ⟨decided, current, hactive⟩ | hfinished
  · exact .inl (inProgressShape_of_active hdb hactive)
  · exact .inr (completedShape_of_finished hfinished)

theorem not_both_shapes (hprogress : InProgressShape db request)
    (hcompleted : CompletedShape db request) : False := by
  have hstatus := hprogress.1.symm.trans hcompleted.1
  cases hstatus

/-- A completed request stays in the state, as it is. -/
theorem completedShape_runCalls (hdb : WellFormed db) (hrequest : request ∈ db.workflowRequests)
    (hcompleted : CompletedShape db request) (calls : List Call) :
    request ∈ (runCalls db calls).workflowRequests ∧
      CompletedShape (runCalls db calls) request := by
  have hafter := wellFormed_runCalls hdb calls
  obtain ⟨request', hrequest', hcarries⟩ := (continues_runCalls hdb calls).requests request hrequest
  rw [hcarries.completed hcompleted.1] at hrequest'
  refine ⟨hrequest', ?_⟩
  rcases shape_of_conducted hafter (hafter.conducted request hrequest') with hprogress | hshape
  · have hstatus := hprogress.1.symm.trans hcompleted.1
    cases hstatus
  · exact hshape

/-- The lifecycle of requests: after every run each request has exactly one of the
two shapes, and the completed shape is never left. -/
theorem lifecycle_invariant (calls : List Call) :
    ∀ request ∈ (runCalls Database.empty calls).workflowRequests,
      (InProgressShape (runCalls Database.empty calls) request ∨
        CompletedShape (runCalls Database.empty calls) request) ∧
      ¬(InProgressShape (runCalls Database.empty calls) request ∧
        CompletedShape (runCalls Database.empty calls) request) ∧
      request.status ∉ [.created, .approved, .rejected, .escalated] ∧
      (CompletedShape (runCalls Database.empty calls) request → ∀ later,
        request ∈ (runCalls Database.empty (calls ++ later)).workflowRequests ∧
          CompletedShape (runCalls Database.empty (calls ++ later)) request) := by
  intro request hrequest
  have hdb := wellFormed_runCalls wellFormed_empty calls
  have hshape := shape_of_conducted hdb (hdb.conducted request hrequest)
  refine ⟨hshape, fun hboth => not_both_shapes hboth.1 hboth.2, ?_, fun hcompleted later => ?_⟩
  · rcases hshape with hprogress | hcompleted
    · simp [hprogress.1]
    · simp [hcompleted.1]
  · rw [runCalls, SerialRun.after_append]
    exact completedShape_runCalls hdb hrequest hcompleted later

theorem lifecycle_invariant_approved :
    ∃ request ∈ (runCalls Database.empty Sample.approvedTwice).workflowRequests,
      request.status = .completed ∧
      (InProgressShape (runCalls Database.empty Sample.approvedTwice) request ∨
        CompletedShape (runCalls Database.empty Sample.approvedTwice) request) ∧
      ¬(InProgressShape (runCalls Database.empty Sample.approvedTwice) request ∧
        CompletedShape (runCalls Database.empty Sample.approvedTwice) request) ∧
      request.status ∉ [.created, .approved, .rejected, .escalated] ∧
      (CompletedShape (runCalls Database.empty Sample.approvedTwice) request → ∀ later,
        request ∈ (runCalls Database.empty (Sample.approvedTwice ++ later)).workflowRequests ∧
          CompletedShape (runCalls Database.empty (Sample.approvedTwice ++ later)) request) := by
  obtain ⟨request, hrequest, hcompleted⟩ :
      ∃ request ∈ (runCalls Database.empty Sample.approvedTwice).workflowRequests,
        request.status = .completed := by
    decide +kernel
  exact ⟨request, hrequest, hcompleted, lifecycle_invariant Sample.approvedTwice request hrequest⟩

end WorkflowPlatform
