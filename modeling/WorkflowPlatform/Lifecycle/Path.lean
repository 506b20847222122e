import WorkflowPlatform.Lifecycle.Reachable

/-! # Executions are paths of the definition

The executions of a request, in the order they were opened, walk the graph of its
workflow: they start at a first step, and each leads to the next by a transition
its outcome and data enable.
-/

namespace WorkflowPlatform

open Python WorkflowEngine

/-- A transition that an execution's outcome and data enable. -/
def Takes (db : Database) (request : WorkflowRequest) (exec : RequestStep)
    (target : Option Uuid) : Prop :=
  ∃ trans ∈ db.stepTransitions, trans.fromStepId = exec.stepId ∧
    trans.outcome = exec.status.value ∧ trans.toStepId = target ∧
    enabled (evalContext request.requestData exec.decisionData) trans = true

/-- The executions of a request are a path of its workflow. -/
structure PathOf (db : Database) (request : WorkflowRequest) (execs : List RequestStep) : Prop where
  first : ∃ exec, execs.head? = some exec ∧ ∃ step ∈ db.workflowSteps,
    step.id = exec.stepId ∧ step.workflowId = request.workflowId ∧ step.stepOrder = 1
  linked : execs.IsChain fun exec next => Takes db request exec (some next.stepId)
  decided : ∀ exec ∈ execs.dropLast, exec.completedAt.isSome
  ended : request.status = .completed → ∃ last, execs.getLast? = some last ∧
    ((∀ target, ¬Takes db request last target) ∨ Takes db request last none)

variable {db : Database} {request : WorkflowRequest}

theorem takes_iff_edge {exec : RequestStep} {target : Option Uuid} :
    Takes db request exec target ↔ (db.graph request.workflowId).edge
      (visitOf request exec).1 (visitOf request exec).2 target := by
  simp only [Takes, Database.graph, Database.transitionsFrom, visitOf, List.mem_filter,
    decide_eq_true_eq]
  constructor
  · rintro ⟨trans, hmem, hfrom, houtcome, htarget, henabled⟩
    exact ⟨trans, ⟨hmem, hfrom, houtcome⟩, henabled, htarget⟩
  · rintro ⟨trans, ⟨hmem, hfrom, houtcome⟩, henabled, htarget⟩
    exact ⟨trans, hmem, hfrom, houtcome, htarget, henabled⟩

/-- The visits of a journey are linked as its executions are. -/
theorem linked_of_journey {execs : List RequestStep} {current : Option Uuid}
    (hjourney : (db.graph request.workflowId).Journey (execs.map (visitOf request)) current) :
    execs.IsChain fun exec next => Takes db request exec (some next.stepId) :=
  ((List.isChain_map (visitOf request)).mp hjourney.isChain).imp fun _ _ hleads =>
    takes_iff_edge.mpr hleads

theorem pathOf_active {decided : List RequestStep} {current : RequestStep}
    (hactive : Active db request decided current) :
    PathOf db request (db.executions request.id) := by
  rw [hactive.executions_eq]
  exact {
    first := by
      obtain ⟨stepId, hhead, hentry⟩ := hactive.journey.entry_head
      cases decided with
      | nil =>
          cases hhead
          exact ⟨current, rfl, hentry⟩
      | cons exec rest =>
          cases hhead
          exact ⟨exec, rfl, hentry⟩
    linked := by
      have hlinked := linked_of_journey hactive.journey
      have hjourney := hactive.journey
      rcases List.eq_nil_or_concat decided with rfl | ⟨before, last, rfl⟩
      · exact List.isChain_singleton _
      · rw [List.concat_eq_append] at hlinked hjourney ⊢
        rw [List.map_append, List.map_singleton] at hjourney
        have hlast : Takes db request last (some current.stepId) :=
          takes_iff_edge.mpr hjourney.edge_of_concat
        exact List.isChain_append.mpr ⟨hlinked, List.isChain_singleton _, by simpa using hlast⟩
    decided := by
      rw [List.dropLast_concat]
      exact hactive.decided_closed
    ended := by
      intro hcompleted
      rw [hactive.status_eq] at hcompleted
      cases hcompleted }

theorem pathOf_finished (hfinished : Finished db request) :
    PathOf db request (db.executions request.id) where
  first := by
    obtain ⟨stepId, hhead, hentry⟩ := hfinished.journey.entry_head
    cases hexecutions : db.executions request.id with
    | nil =>
        rw [hexecutions] at hhead
        cases hhead
    | cons exec rest =>
        rw [hexecutions] at hhead
        cases hhead
        exact ⟨exec, rfl, hentry⟩
  linked := linked_of_journey hfinished.journey
  decided exec hexec := hfinished.executions_closed exec (List.mem_of_mem_dropLast hexec)
  ended _ := by
    obtain ⟨visit, hlast, hends⟩ := hfinished.journey.ends
    rw [List.getLast?_map, Option.map_eq_some_iff] at hlast
    obtain ⟨last, hlast, rfl⟩ := hlast
    refine ⟨last, hlast, ?_⟩
    rcases hends with hend | hnone
    · exact .inr (takes_iff_edge.mpr hend)
    · exact .inl fun target htakes => hnone target (takes_iff_edge.mp htakes)

/-- Every execution is a path of the definition. -/
theorem executions_follow_definition (calls : List Call) :
    ∀ request ∈ (runCalls Database.empty calls).workflowRequests,
      PathOf (runCalls Database.empty calls) request
        ((runCalls Database.empty calls).executions request.id) := by
  intro request hrequest
  rcases (wellFormed_runCalls wellFormed_empty calls).conducted request hrequest with
    ⟨decided, current, hactive⟩ | hfinished
  · exact pathOf_active hactive
  · exact pathOf_finished hfinished

theorem executions_follow_definition_approved :
    ∃ request ∈ (runCalls Database.empty Sample.approvedTwice).workflowRequests,
      request.status = .completed ∧ PathOf (runCalls Database.empty Sample.approvedTwice) request
        ((runCalls Database.empty Sample.approvedTwice).executions request.id) := by
  obtain ⟨request, hrequest, hcompleted⟩ :
      ∃ request ∈ (runCalls Database.empty Sample.approvedTwice).workflowRequests,
        request.status = .completed := by
    decide +kernel
  exact ⟨request, hrequest, hcompleted,
    executions_follow_definition Sample.approvedTwice request hrequest⟩

end WorkflowPlatform
