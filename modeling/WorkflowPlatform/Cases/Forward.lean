import WorkflowPlatform.Cases.Refinement
import WorkflowPlatform.Lifecycle.Path

/-! # Forward definitions

A definition is forward when its transitions lead to later steps only, as those that
the clients generate do. Its cases cannot go round in circles: a request visits no
step twice, and every ruling leaves less to do.
-/

namespace WorkflowPlatform

open Python WorkflowEngine

namespace Definition

/-- Every transition leaves a step of the definition, and enters a later one if any. -/
def forward (definition : Definition) : Bool :=
  definition.transitions.all fun trans =>
    (definition.step? trans.fromStepId).any fun step =>
      (trans.toStepId.bind definition.step?).all fun next => step.stepOrder < next.stepOrder

/-- One step stands before another. -/
def Earlier (definition : Definition) (stepId laterId : Uuid) : Prop :=
  ∃ step next, definition.step? stepId = some step ∧ definition.step? laterId = some next ∧
    step.stepOrder < next.stepOrder

variable {definition : Definition}

theorem Earlier.chain {first second third : Uuid} (hfirst : definition.Earlier first second)
    (hsecond : definition.Earlier second third) : definition.Earlier first third := by
  obtain ⟨step, middle, hstep, hmiddle, hless⟩ := hfirst
  obtain ⟨middle', next, hmiddle', hnext, hless'⟩ := hsecond
  rw [hmiddle, Option.some.injEq] at hmiddle'
  subst hmiddle'
  exact ⟨step, next, hstep, hnext, hless.trans hless'⟩

theorem Earlier.ne {first second : Uuid} (hearlier : definition.Earlier first second) :
    first ≠ second := by
  intro heq
  obtain ⟨step, next, hstep, hnext, hless⟩ := hearlier
  rw [← heq, hstep, Option.some.injEq] at hnext
  rw [hnext] at hless
  exact lt_irrefl _ hless

/-- A transition of a forward definition leads to a later step. -/
theorem earlier_of_transition (hforward : definition.forward = true) {trans : StepTransition}
    (htrans : trans ∈ definition.transitions) {next : WorkflowStep}
    (htarget : trans.toStepId.bind definition.step? = some next) :
    ∃ step, definition.step? trans.fromStepId = some step ∧ step.stepOrder < next.stepOrder := by
  have hall := List.all_eq_true.mp hforward trans htrans
  rw [Option.any_eq_true] at hall
  obtain ⟨step, hstep, hlater⟩ := hall
  rw [htarget, Option.all_some, decide_eq_true_eq] at hlater
  exact ⟨step, hstep, hlater⟩

end Definition

/-! ## What is left to do -/

/-- The number of steps from a step on. -/
def Definition.remaining (definition : Definition) (stepId : Uuid) : ℕ :=
  match definition.step? stepId with
  | some step => (definition.steps.filter (step.stepOrder ≤ ·.stepOrder)).length
  | none => 1

/-- How many rulings can still take effect on a case, at most. -/
def Case.remaining (definition : Definition) (case : Case) : ℕ :=
  match case.stage with
  | .closed _ => 0
  | .waiting stepId _ _ => definition.remaining stepId

variable {definition : Definition} {case after : Case} {ruling : Ruling}

theorem Definition.remaining_of_step {stepId : Uuid} {step : WorkflowStep}
    (hstep : definition.step? stepId = some step) :
    definition.remaining stepId =
      (definition.steps.filter (step.stepOrder ≤ ·.stepOrder)).length := by
  simp only [Definition.remaining, hstep]

theorem Definition.remaining_pos (definition : Definition) (stepId : Uuid) :
    0 < definition.remaining stepId := by
  unfold Definition.remaining
  split
  · next step hstep =>
    apply List.length_pos_of_mem
    exact List.mem_filter.mpr ⟨List.mem_of_find?_eq_some hstep, decide_eq_true le_rfl⟩
  · exact Nat.one_pos

/-- Fewer steps stand from a later step on. -/
theorem remaining_later {step next : WorkflowStep} (hstep : step ∈ definition.steps)
    (hlater : step.stepOrder < next.stepOrder) :
    (definition.steps.filter (next.stepOrder ≤ ·.stepOrder)).length <
      (definition.steps.filter (step.stepOrder ≤ ·.stepOrder)).length := by
  have hsub : definition.steps.filter (next.stepOrder ≤ ·.stepOrder) =
      (definition.steps.filter (step.stepOrder ≤ ·.stepOrder)).filter
        (next.stepOrder ≤ ·.stepOrder) := by
    rw [List.filter_filter]
    apply List.filter_congr
    intro other _
    rw [eq_comm, Bool.and_eq_left_iff_imp, decide_eq_true_eq, decide_eq_true_eq]
    exact fun hle => hlater.le.trans hle
  rw [hsub]
  apply List.length_filter_lt_length_iff_exists.mpr
  refine ⟨step, List.mem_filter.mpr ⟨hstep, decide_eq_true le_rfl⟩, ?_⟩
  simpa using hlater

/-- The target of a transition has less before it than the step it leaves. -/
theorem Definition.remaining_next (hforward : definition.forward = true) {trans : StepTransition}
    (htrans : trans ∈ definition.transitions) {next : WorkflowStep}
    (htarget : trans.toStepId.bind definition.step? = some next) :
    definition.remaining next.id < definition.remaining trans.fromStepId := by
  obtain ⟨step, hstep, hlater⟩ := Definition.earlier_of_transition hforward htrans htarget
  obtain ⟨target, -, hfound⟩ := Option.bind_eq_some_iff.mp htarget
  have hid : next.id = target := by simpa using List.find?_some hfound
  rw [Definition.remaining_of_step hstep, hid, Definition.remaining_of_step hfound]
  exact remaining_later (List.mem_of_find?_eq_some hstep) hlater

/-- A ruling that takes effect leaves less to do. -/
theorem remaining_rule? (hforward : definition.forward = true)
    (hrule : case.rule? definition ruling = some after) :
    after.remaining definition < case.remaining definition := by
  obtain ⟨data, visits, stage⟩ := case
  cases stage with
  | closed completedAt => cases hrule
  | waiting stepId startedAt deadline =>
      simp only [Case.rule?, Option.ite_none_left_eq_some, Option.bind_eq_some_iff] at hrule
      obtain ⟨-, outcome, -, hroute⟩ := hrule
      cases hnext : ruling.next definition data stepId with
      | none =>
          simp only [hnext, Option.ite_none_left_eq_some, Option.some.injEq] at hroute
          obtain ⟨-, rfl⟩ := hroute
          exact definition.remaining_pos stepId
      | some next =>
          simp only [hnext, Option.map_eq_some_iff] at hroute
          obtain ⟨deadline, -, rfl⟩ := hroute
          obtain ⟨trans, hpick, htarget⟩ := Option.bind_eq_some_iff.mp hnext
          obtain ⟨htrans, hleaves⟩ := List.mem_filter.mp (RowOrder.pick_some hpick).1
          obtain ⟨hfrom, -⟩ := of_decide_eq_true hleaves
          have hless := Definition.remaining_next hforward htrans htarget
          rw [hfrom] at hless
          exact hless

/-! ## No step twice -/

section Requests

variable {db : Database} {request : WorkflowRequest}

/-- A transition that an execution takes leads to a later step. -/
theorem earlier_of_takes (hdb : WellFormed db) (hrequest : request ∈ db.workflowRequests)
    (hforward : (db.definition request.workflowId).forward = true) {exec next : RequestStep}
    (hexec : exec ∈ db.executions request.id)
    (htakes : Takes db request exec (some next.stepId)) :
    (db.definition request.workflowId).Earlier exec.stepId next.stepId := by
  obtain ⟨trans, htrans, hfrom, -, htarget, -⟩ := htakes
  have hstep := hdb.hasStep_of_execution hrequest hexec
  have hnext := hdb.toWellDefined.hasStep_of_transition htrans (hfrom.symm ▸ hstep) htarget
  obtain ⟨step, hfound, hid, -⟩ := hdb.toWellDefined.step?_of_hasStep hnext
  have hdefined := step?_definition hdb.toWellDefined hnext
  rw [hfound] at hdefined
  have hmem : trans ∈ (db.definition request.workflowId).transitions := by
    apply List.mem_filter.mpr
    rw [any_stepsOf_iff, hfrom]
    exact ⟨htrans, hstep⟩
  have hbound : trans.toStepId.bind (db.definition request.workflowId).step? = some step := by
    rw [htarget, Option.bind_some, hdefined]
  obtain ⟨source, hsource, hlater⟩ := Definition.earlier_of_transition hforward hmem hbound
  rw [hfrom] at hsource
  exact ⟨source, step, hsource, hdefined, hlater⟩

/-- The executions of a request with a forward definition come in the order of their steps. -/
theorem executions_pairwise (hdb : WellFormed db) (hrequest : request ∈ db.workflowRequests)
    (hforward : (db.definition request.workflowId).forward = true) :
    (db.executions request.id).Pairwise fun exec later =>
      (db.definition request.workflowId).Earlier exec.stepId later.stepId := by
  have hlinked : (db.executions request.id).IsChain fun exec next =>
      Takes db request exec (some next.stepId) := by
    rcases hdb.conducted request hrequest with ⟨decided, current, hactive⟩ | hfinished
    · exact (pathOf_active hactive).linked
    · exact (pathOf_finished hfinished).linked
  have hchain : (db.executions request.id).IsChain fun exec later =>
      (db.definition request.workflowId).Earlier exec.stepId later.stepId := by
    apply hlinked.imp_of_mem_imp
    intro exec next hexec _ htakes
    exact earlier_of_takes hdb hrequest hforward hexec htakes
  have : IsTrans RequestStep fun exec later =>
      (db.definition request.workflowId).Earlier exec.stepId later.stepId :=
    ⟨fun _ _ _ hfirst hsecond => hfirst.chain hsecond⟩
  exact List.isChain_iff_pairwise.mp hchain

/-- A request with a forward definition visits steps in increasing order, hence none twice,
and takes no more visits than its workflow has steps. -/
theorem forward_requests_advance (hreachable : Reachable db)
    (hrequest : request ∈ db.workflowRequests)
    (hforward : (db.definition request.workflowId).forward = true) :
    (db.executions request.id).Pairwise (fun exec later =>
        (db.definition request.workflowId).Earlier exec.stepId later.stepId) ∧
      (db.executions request.id).length ≤ (db.stepsOf request.workflowId).length := by
  have hdb := hreachable.wellFormed
  have hpairwise := executions_pairwise hdb hrequest hforward
  refine ⟨hpairwise, ?_⟩
  have hnodup : ((db.executions request.id).map (·.stepId)).Nodup := by
    apply List.pairwise_map.mpr
    exact hpairwise.imp fun hearlier => hearlier.ne
  have hsubset : (db.executions request.id).map (·.stepId) ⊆
      (db.stepsOf request.workflowId).map (·.id) := by
    intro stepId hstep
    obtain ⟨exec, hexec, rfl⟩ := List.mem_map.mp hstep
    exact Database.mem_gone_iff.mpr (hdb.hasStep_of_execution hrequest hexec)
  simpa using (List.subperm_of_subset hnodup hsubset).length_le

end Requests

/-- Two reviews in a row. -/
theorem forward_requests_advance_approved :
    ∃ request ∈ (runCalls Database.empty Sample.approvedTwice).workflowRequests,
      ((runCalls Database.empty Sample.approvedTwice).executions request.id).length ≤
        ((runCalls Database.empty Sample.approvedTwice).stepsOf request.workflowId).length := by
  obtain ⟨request, hrequest, hforward⟩ :
      ∃ request ∈ (runCalls Database.empty Sample.approvedTwice).workflowRequests,
        ((runCalls Database.empty Sample.approvedTwice).definition
          request.workflowId).forward = true := by
    decide +kernel
  exact ⟨request, hrequest,
    (forward_requests_advance ⟨Sample.approvedTwice, rfl⟩ hrequest hforward).2⟩

end WorkflowPlatform
