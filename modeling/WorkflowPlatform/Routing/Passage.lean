import Mathlib.Data.List.Forall2
import WorkflowPlatform.Routing.Linear

/-! # Going through a line

What a request whose workflow is a line has been through can be told from the
outcomes of its decisions: as long as all are approvals it is at the next node, or
completed after the last, and the first rejection completes it.
-/

namespace WorkflowPlatform

open Python WorkflowEngine

/-- The outcomes of the decisions on a request, in the order they were taken. -/
def Database.outcomes (db : Database) (requestId : Uuid) : List String :=
  (db.decidedExecutions requestId).map (·.status.value)

/-- The steps a request has visited, the current one last. -/
def Database.visitedSteps (db : Database) (requestId : Uuid) : List Uuid :=
  (db.executions requestId).map (·.stepId)

/-- The step with the identifier fits what it was defined by. -/
def Database.Shows {Shown : Type} (fits : Shown → WorkflowStep → Prop) (db : Database)
    (shown : Shown) (stepId : Uuid) : Prop :=
  ∃ row, db.step? stepId = some row ∧ fits shown row

/-- A request in progress at a step. -/
structure InProgressAt (db : Database) (request : WorkflowRequest) (stepId : Uuid) : Prop where
  status_eq : request.status = .inProgress
  currentStepId_eq : request.currentStepId = some stepId
  open_eq : ∃ exec, db.openExecutions request.id = [exec] ∧ exec.stepId = stepId

/-- A request completed with a verdict. -/
structure CompletedWith (db : Database) (request : WorkflowRequest) (verdict : RequestStatus) :
    Prop where
  status_eq : request.status = .completed
  currentStepId_eq : request.currentStepId = none
  records : db.Records request.id
    [(.created, .inProgress), (.inProgress, verdict), (verdict, .completed)]

variable {db db' : Database} {request : WorkflowRequest} {decided : List RequestStep}
  {current : RequestStep}

/-- Stored rows are shown by their identifiers. -/
theorem shows_iff {Shown : Type} {fits : Shown → WorkflowStep → Prop} {shown : List Shown}
    {rows : List WorkflowStep} (hfound : ∀ row ∈ rows, db.step? row.id = some row) :
    List.Forall₂ (db.Shows fits) shown (rows.map (·.id)) ↔ List.Forall₂ fits shown rows := by
  induction rows generalizing shown with
  | nil => simp
  | cons row rest ih =>
      have hhead : ∀ entry, db.Shows fits entry row.id ↔ fits entry row := fun entry => by
        simp [Database.Shows, hfound row List.mem_cons_self]
      simp only [List.map_cons, List.forall₂_cons_right_iff, hhead,
        ih fun other hother => hfound other (List.mem_cons_of_mem _ hother)]

/-! ## The decisions of a conducted request -/

/-- The decisions of a journey are the outcomes. -/
theorem visit_of_outcome {execs : List RequestStep} {property : String → Prop}
    (houtcomes : ∀ outcome ∈ execs.map (·.status.value), property outcome) :
    ∀ visit ∈ execs.map (visitOf request), property visit.2.1 := by
  intro visit hvisit
  obtain ⟨exec, hexec, rfl⟩ := List.mem_map.mp hvisit
  exact houtcomes _ (List.mem_map_of_mem hexec)

theorem map_visitOf_fst (execs : List RequestStep) :
    (execs.map (visitOf request)).map Prod.fst = execs.map (·.stepId) := by
  rw [List.map_map]
  rfl

/-- A completed request was given the verdict of its last outcome. -/
theorem completedWith_of_finished (hrecorded : Recorded db request)
    (hfinished : Finished db request) {before : List String} {outcome : String}
    (houtcomes : db.outcomes request.id = before ++ [outcome]) :
    CompletedWith db request (verdictOf outcome) := by
  cases hrecorded with
  | inProgress hstatus hrecords =>
      rw [hfinished.status_eq] at hstatus
      cases hstatus
  | completed last hstatus hlast hrecords =>
      have hvalue : last.status.value = outcome := by
        have hlast' := congrArg List.getLast? houtcomes
        rw [Database.outcomes, List.getLast?_map, hlast, List.getLast?_concat] at hlast'
        exact Option.some.inj hlast'
      exact ⟨hstatus, hfinished.currentStepId_eq, hvalue ▸ hrecords⟩

/-! ## On a line -/

section OnLine

variable {nodes : List Uuid} (hdb : WellFormed db) (hrequest : request ∈ db.workflowRequests)
  (hrecorded : Recorded db request)
  (hline : DecisionGraph.Line (db.graph request.workflowId) nodes (·.1 = "APPROVED")
    (·.1 = "REJECTED"))

include hdb hrequest hrecorded hline

omit hdb hrequest hrecorded in
/-- An active request that was approved throughout has been through the nodes up to its
current step. -/
theorem nodes_of_active (hactive : Active db request decided current)
    (happroved : ∀ outcome ∈ db.outcomes request.id, outcome = "APPROVED") :
    ∃ rest, nodes = decided.map (·.stepId) ++ current.stepId :: rest := by
  rw [Database.outcomes, decidedExecutions_of_active hactive] at happroved
  obtain ⟨rest, hnodes, hcurrent⟩ := hline.visited hactive.journey (visit_of_outcome happroved)
  obtain ⟨rest, rfl⟩ := List.head?_eq_some_iff.mp hcurrent.symm
  rw [map_visitOf_fst] at hnodes
  exact ⟨rest, hnodes⟩

omit hdb hrequest hrecorded in
/-- A finished one has been through all nodes. -/
theorem nodes_of_finished (hfinished : Finished db request)
    (happroved : ∀ outcome ∈ db.outcomes request.id, outcome = "APPROVED") :
    nodes = db.visitedSteps request.id := by
  rw [Database.outcomes, decidedExecutions_of_finished hfinished] at happroved
  obtain ⟨rest, hnodes, hend⟩ := hline.visited hfinished.journey (visit_of_outcome happroved)
  obtain rfl := List.head?_eq_none_iff.mp hend.symm
  rw [map_visitOf_fst, List.append_nil] at hnodes
  exact hnodes

/-- After approvals only, a request is in progress at the next node; after an approval
at each node it is completed. -/
theorem passed_of_line {count : ℕ}
    (houtcomes : db.outcomes request.id = List.replicate count "APPROVED") :
    count ≤ nodes.length ∧ db.visitedSteps request.id = nodes.take (count + 1) ∧
      (∀ node, nodes[count]? = some node → InProgressAt db request node) ∧
      (count = nodes.length → CompletedWith db request .approved) := by
  have happroved : ∀ outcome ∈ db.outcomes request.id, outcome = "APPROVED" := by
    rw [houtcomes]
    exact fun outcome houtcome => List.eq_of_mem_replicate houtcome
  have hcount : (db.decidedExecutions request.id).length = count := by
    simpa [Database.outcomes] using congrArg List.length houtcomes
  rcases hdb.conducted request hrequest with ⟨decided, current, hactive⟩ | hfinished
  · obtain ⟨rest, hnodes⟩ := nodes_of_active hline hactive happroved
    rw [decidedExecutions_of_active hactive] at hcount
    have hlength : (decided.map (·.stepId)).length = count := by rw [List.length_map, hcount]
    have hthere : nodes[count]? = some current.stepId := by
      rw [hnodes, List.getElem?_append_right hlength.le, hlength, Nat.sub_self]
      rfl
    refine ⟨?_, ?_, fun node hnode => ?_, fun hall => ?_⟩
    · rw [hnodes, List.length_append, hlength]
      exact Nat.le_add_right _ _
    · rw [Database.visitedSteps, hactive.executions_eq, hnodes, ← hlength,
        List.take_length_add_append]
      simp
    · obtain rfl : current.stepId = node := Option.some.inj (hthere.symm.trans hnode)
      exact ⟨hactive.status_eq, hactive.currentStepId_eq, current, openExecutions_of_active hactive,
        rfl⟩
    · rw [hall, List.getElem?_length] at hthere
      cases hthere
  · have hnodes := nodes_of_finished hline hfinished happroved
    rw [decidedExecutions_of_finished hfinished] at hcount
    have hlength : nodes.length = count := by
      rw [hnodes, Database.visitedSteps, List.length_map, hcount]
    refine ⟨hlength.ge, ?_, fun node hnode => ?_, fun _ => ?_⟩
    · rw [List.take_of_length_le (by omega), hnodes]
    · rw [← hlength, List.getElem?_length] at hnode
      cases hnode
    · -- the verdict is that of the last approval
      obtain ⟨visit, hlast, -⟩ := hfinished.journey.ends
      obtain ⟨before, rfl⟩ : ∃ before, count = before + 1 := by
        apply Nat.exists_eq_add_one.mpr
        have hne : db.executions request.id ≠ [] := by
          intro hnil
          rw [hnil] at hlast
          cases hlast
        exact hcount ▸ List.length_pos_iff.mpr hne
      rw [List.replicate_succ'] at houtcomes
      exact completedWith_of_finished hrecorded hfinished houtcomes

/-- A rejection at a node completes the request there. -/
theorem rejected_of_line {count : ℕ}
    (houtcomes : db.outcomes request.id = List.replicate count "APPROVED" ++ ["REJECTED"]) :
    count < nodes.length ∧ db.visitedSteps request.id = nodes.take (count + 1) ∧
      CompletedWith db request .rejected := by
  have hsplit : ∃ before last, db.decidedExecutions request.id = before ++ [last] ∧
      before.map (·.status.value) = List.replicate count "APPROVED" ∧
        last.status.value = "REJECTED" := by
    obtain ⟨before, lasts, hdecided, hbefore, hlasts⟩ := List.map_eq_append_iff.mp houtcomes
    obtain ⟨last, rfl, hlast⟩ := List.map_eq_singleton_iff.mp hlasts
    exact ⟨before, last, hdecided, hbefore, hlast⟩
  obtain ⟨before, last, hdecided, hbefore, hlast⟩ := hsplit
  have happroved : ∀ outcome ∈ before.map (·.status.value), outcome = "APPROVED" := by
    rw [hbefore]
    exact fun outcome houtcome => List.eq_of_mem_replicate houtcome
  have hcount : (before.map (·.stepId)).length = count := by
    simpa using congrArg List.length hbefore
  have hhalted : ∀ {current},
      (db.graph request.workflowId).Journey ((before ++ [last]).map (visitOf request)) current →
        current = none ∧ ∃ rest, nodes = before.map (·.stepId) ++ last.stepId :: rest := by
    intro current hjourney
    rw [List.map_append, List.map_singleton] at hjourney
    rw [← map_visitOf_fst]
    exact hline.halted hjourney (visit_of_outcome happroved) hlast
  rcases hdb.conducted request hrequest with ⟨decided, current, hactive⟩ | hfinished
  · rw [decidedExecutions_of_active hactive] at hdecided
    have hhere := hhalted (hdecided ▸ hactive.journey)
    cases hhere.1
  · rw [decidedExecutions_of_finished hfinished] at hdecided
    obtain ⟨-, rest, hnodes⟩ := hhalted (hdecided ▸ hfinished.journey)
    refine ⟨?_, ?_, completedWith_of_finished hrecorded hfinished houtcomes⟩
    · rw [hnodes, List.length_append, hcount, List.length_cons]
      omega
    · rw [Database.visitedSteps, hdecided, hnodes, ← hcount, List.take_length_add_append]
      simp

end OnLine

/-! ## Deciding on -/

/-- A routed decision comes last among the outcomes. -/
theorem outcomes_routed (hdb : WellFormed db) {env : Env} {user : User} {outcome : String}
    {context : Option Dict} {status : Option StepStatus}
    (hactive : Active db request decided current)
    (hstatus : (decisionOf env current user outcome context).storedStatus? = some status)
    (hrouted : Routed env db user outcome context request current status db') :
    db'.outcomes request.id = db.outcomes request.id ++ [outcome] := by
  have hvalue : (closedExecution env current user outcome context status).status.value = outcome :=
    storedStatus?_eq_some hstatus
  have hclosed : db'.decidedExecutions request.id =
      decided ++ [closedExecution env current user outcome context status] := by
    cases hrouted with
    | moved nextStep deadline hnext hdeadline =>
        have hmoved := active_movedRequest hdb hactive hstatus deadline hnext
        exact (decidedExecutions_of_active hmoved :)
    | finished hnext haudited hvalid => exact decidedExecutions_completed hdb hactive
  rw [Database.outcomes, hclosed, Database.outcomes, decidedExecutions_of_active hactive,
    List.map_append, List.map_singleton, hvalue]

/-- A decision that names a status is accepted from a user whom the step admits, as
long as the database answers, takes the context and can store the deadline of every
step. -/
theorem outcomes_processStep (hdb : WellFormed db) (hrequest : request ∈ db.workflowRequests)
    {env : Env} {user : User} {outcome : String} {context : Option Dict}
    (hactive : Active db request decided current) (hpermitted : rbacError db user current = none)
    (houtcome : (StepStatus.ofValue? outcome).isSome) (hfree : Unobstructed env context)
    (hdeadlines : ∀ step ∈ db.stepsOf request.workflowId,
      ((env.utcnow 1).addHours step.slaHours).isSome) :
    (Call.processStep env request.id user outcome context).accepted db = true ∧
      ((Call.processStep env request.id user outcome context).perform db).outcomes request.id =
        db.outcomes request.id ++ [outcome] := by
  have hadmits : Admits env db request user :=
    ⟨current, WellFormed.openExecution_of_active hactive env.executionOrder, hpermitted⟩
  have hunblocked : ¬Blocked env db request outcome context := by
    obtain ⟨hfirst, hsecond, hthird, hstores⟩ := hfree
    rintro (hrefused | haudit | hcommit | hlate)
    · rw [hstores] at hrefused
      cases hrefused
    · rw [hsecond] at haudit
      cases haudit
    · rw [hthird] at hcommit
      cases hcommit
    · cases hnext : nextStepOf env db request outcome context with
      | none =>
          rw [hnext, hfirst] at hlate
          cases hlate
      | some nextStep =>
          have hset := hdeadlines nextStep (nextStepOf_mem_stepsOf hdb hactive hnext)
          rw [hnext] at hlate
          rw [hlate] at hset
          cases hset
  rw [← decided_eq_none_iff context hdb hrequest hadmits houtcome] at hunblocked
  obtain ⟨db', hdecided⟩ := Option.ne_none_iff_exists'.mp hunblocked
  obtain ⟨status, haccepted, hrouted⟩ := accepted_of_active hdb hrequest hactive hdecided
  rw [accepted_processStep, perform_processStep, hdecided]
  exact ⟨rfl, outcomes_routed hdb hactive haccepted.status_stored hrouted⟩

end WorkflowPlatform
