import WorkflowPlatform.Deciding.Vocabulary
import WorkflowPlatform.Ledger.Frame

/-! # Taking a transition

A definition takes any text as the outcome of a transition; an execution stores the
outcome of its decision in an enum column, and its comment in a column of text. A
transition can be taken exactly when both columns take what they are given.
-/

namespace WorkflowPlatform

open Python WorkflowEngine

variable {env : Env} {db : Database} {request : WorkflowRequest} {exec : RequestStep}
  {trans : StepTransition} {user : User} {context : Option Dict}

/-! ## What taking a transition means -/

/-- A transition with an empty guard. -/
def StepTransition.Unconditional (trans : StepTransition) : Prop :=
  trans.conditionConfig.getD [] = []

/-- No other transition leaves the step with the outcome. -/
def Sole (db : Database) (trans : StepTransition) : Prop :=
  db.transitionsFrom trans.fromStepId trans.outcome = [trans]

/-- The request is in progress at the target of a transition; without a target it
is completed. -/
def ArrivesAt (db : Database) (requestId : Uuid) : Option Uuid → Prop
  | some target =>
      (∃ request, db.request? requestId = some request ∧ request.status = .inProgress ∧
        request.currentStepId = some target) ∧
      ∃ opened, db.openExecutions requestId = [opened] ∧ opened.stepId = target
  | none =>
      (∃ request, db.request? requestId = some request ∧ request.status = .completed ∧
        request.currentStepId = none ∧ request.completedAt.isSome) ∧
      db.openExecutions requestId = []

/-- The decision with the outcome of a transition commits, closes the execution with
that outcome, and moves the request along the transition. -/
structure TakesTransition (env : Env) (db : Database) (request : WorkflowRequest)
    (exec : RequestStep) (user : User) (context : Option Dict) (trans : StepTransition) : Prop where
  commits : (Call.processStep env request.id user trans.outcome context).accepted db = true
  closes : ∃ closed,
    ((Call.processStep env request.id user trans.outcome context).perform db).execution? exec.id =
      some closed ∧ closed.completedAt.isSome ∧ closed.status.value = trans.outcome
  arrives : ArrivesAt ((Call.processStep env request.id user trans.outcome context).perform db)
    request.id trans.toStepId

/-- What is assumed not to happen: the database does not answer a round trip of the
decision, or the deadline of the target lies beyond the last day. -/
def Hindered (env : Env) (db : Database) (trans : StepTransition) : Prop :=
  env.dbFails 1 = true ∨ env.dbFails 2 = true ∨
    match trans.toStepId.bind db.step? with
    | none => env.dbFails 0 = true
    | some target => (env.utcnow 1).addHours target.slaHours = none

/-! ## Where the decision leads -/

theorem enabled_of_unconditional (hunconditional : trans.Unconditional) (data : Dict) :
    enabled data trans = true := by
  unfold StepTransition.Unconditional at hunconditional
  unfold enabled
  cases hconfig : trans.conditionConfig with
  | none => rfl
  | some config =>
      rw [hconfig, Option.getD_some] at hunconditional
      rw [hunconditional]

/-- With one unconditional transition to choose from, every order of the rows leads
to its target. -/
theorem nextStepOf_of_sole (env : Env) (context : Option Dict) {decided : List RequestStep}
    (hactive : Active db request decided exec)
    (hsource : trans.fromStepId = exec.stepId) (hsole : Sole db trans)
    (hunconditional : trans.Unconditional) :
    nextStepOf env db request trans.outcome context = trans.toStepId.bind db.step? := by
  have hmatching : matchingTransitions db request.currentStepId trans.outcome = [trans] := by
    rw [hactive.currentStepId_eq, ← hsource]
    exact hsole
  have hpick : env.transitionOrder.pick (enabled (evalContext request.requestData context))
      [trans] = some trans := by
    simp [RowOrder.pick, enabled_of_unconditional hunconditional]
  rw [nextStepOf, resolveNext, hmatching, hpick, Option.bind_some]

/-- The target of a transition is a step. -/
theorem step?_of_target (hdb : WellFormed db) {decided : List RequestStep}
    (hactive : Active db request decided exec) (hsource : trans.fromStepId = exec.stepId)
    (hsole : Sole db trans) {target : Uuid} (htarget : trans.toStepId = some target) :
    ∃ next, db.step? target = some next ∧ next.id = target := by
  have htrans : trans ∈ db.transitionsFrom trans.fromStepId trans.outcome :=
    hsole ▸ List.mem_singleton_self trans
  have hfrom := hdb.hasStep_of_active hactive
  rw [← hsource] at hfrom
  obtain ⟨next, hnext, hid, -⟩ := hdb.toWellDefined.step?_of_hasStep
    (hdb.toWellDefined.hasStep_of_transition (List.mem_of_mem_filter htrans) hfrom htarget)
  exact ⟨next, hnext, hid⟩

theorem admits_of_admin {decided : List RequestStep} (hactive : Active db request decided exec)
    (hadmin : isAdmin user = true) : Admits env db request user := by
  refine ⟨exec, WellFormed.openExecution_of_active hactive env.executionOrder, ?_⟩
  simp [rbacError, hadmin]

/-! ## Taking it -/

/-- A routed decision along the transition closes the execution and arrives. -/
theorem arrives_routed {db' : Database} {status : Option StepStatus} {decided : List RequestStep}
    (hdb : WellFormed db) (hafter : WellFormed db') (hrequest : request ∈ db.workflowRequests)
    (hexec : exec ∈ db.requestSteps) (hactive : Active db request decided exec)
    (hstatus : (decisionOf env exec user trans.outcome context).storedStatus? = some status)
    (hsource : trans.fromStepId = exec.stepId) (hsole : Sole db trans)
    (hunconditional : trans.Unconditional)
    (hrouted : Routed env db user trans.outcome context request exec status db') :
    (∃ closed, db'.execution? exec.id = some closed ∧ closed.completedAt.isSome ∧
      closed.status.value = trans.outcome) ∧ ArrivesAt db' request.id trans.toStepId := by
  have htaken := nextStepOf_of_sole env context hactive hsource hsole
    hunconditional
  have hclosed : closedExecution env exec user trans.outcome context status ∈
      closedSteps env db exec user trans.outcome context status :=
    Keyed.mem_update.mpr (.inl ⟨exec, hexec, rfl, rfl⟩)
  have hvalue := storedStatus?_eq_some hstatus
  cases hrouted with
  | moved nextStep deadline hnext hdeadline =>
      refine ⟨⟨_, hafter.execution?_eq_some_iff.mpr ⟨List.mem_append_left _ hclosed, rfl⟩, rfl,
        hvalue⟩, ?_⟩
      rw [hnext] at htaken
      obtain ⟨target, htarget, hstep⟩ := Option.bind_eq_some_iff.mp htaken.symm
      obtain ⟨next, hfound, hid⟩ := step?_of_target hdb hactive hsource hsole htarget
      obtain rfl : next = nextStep := Option.some.inj (hfound.symm.trans hstep)
      have hmoved := active_movedRequest hdb hactive hstatus deadline hnext
      have hrow : movedRequest request next ∈
          (movedOn env db request exec user trans.outcome context status next
            deadline).workflowRequests :=
        Keyed.mem_update.mpr (.inl ⟨request, hrequest, rfl, rfl⟩)
      rw [htarget, ← hid]
      refine ⟨⟨_, hafter.request?_eq_some_iff.mpr ⟨hrow, rfl⟩, hmoved.status_eq,
        hmoved.currentStepId_eq⟩, _, (openExecutions_of_active hmoved :), rfl⟩
  | finished hnext haudited hvalid =>
      refine ⟨⟨_, hafter.execution?_eq_some_iff.mpr ⟨hclosed, rfl⟩, rfl, hvalue⟩, ?_⟩
      have hend : trans.toStepId = none := by
        cases htarget : trans.toStepId with
        | none => rfl
        | some target =>
            obtain ⟨next, hfound, -⟩ := step?_of_target hdb hactive hsource hsole htarget
            rw [hnext, htarget, Option.bind_some, hfound] at htaken
            cases htaken
      have hfinished := finished_completedRequest hdb hactive hstatus hnext
      have hrow : completedRequest env request ∈
          (completed env db request exec user trans.outcome context status).workflowRequests :=
        Keyed.mem_update.mpr (.inl ⟨request, hrequest, rfl, rfl⟩)
      obtain ⟨hcompleted, hended, hnowhere, hnone⟩ := completedShape_of_finished hfinished
      rw [hend]
      exact ⟨⟨_, hafter.request?_eq_some_iff.mpr ⟨hrow, rfl⟩, hcompleted, hnowhere, hended⟩, hnone⟩

theorem takesTransition_iff_of_wellFormed (hdb : WellFormed db)
    (hrequest : request ∈ db.workflowRequests) (hopen : exec ∈ db.openExecutions request.id)
    (hsource : trans.fromStepId = exec.stepId) (hsole : Sole db trans)
    (hunconditional : trans.Unconditional) (hadmin : isAdmin user = true) :
    TakesTransition env db request exec user context trans ↔
      (StepStatus.ofValue? trans.outcome).isSome ∧ env.stores context = true ∧
        ¬Hindered env db trans := by
  obtain ⟨hexec, -, -⟩ := mem_openExecutions.mp hopen
  obtain ⟨decided, hactive⟩ := active_of_open hdb hrequest hopen
  have hblocked : Blocked env db request trans.outcome context ↔
      env.stores context = false ∨ Hindered env db trans := by
    rw [Blocked, nextStepOf_of_sole env context hactive hsource hsole hunconditional]
    exact Iff.rfl
  constructor
  · intro htakes
    have haccepted := htakes.commits
    rw [accepted_processStep] at haccepted
    have hnamed : (StepStatus.ofValue? trans.outcome).isSome := by
      by_contra hunknown
      rw [decided_eq_none_of_unknown (Option.not_isSome_iff_eq_none.mp hunknown)] at haccepted
      cases haccepted
    have hfree : ¬Blocked env db request trans.outcome context := by
      intro hstopped
      rw [(decided_eq_none_iff context hdb hrequest (admits_of_admin hactive hadmin) hnamed).mpr
        hstopped] at haccepted
      cases haccepted
    rw [hblocked, not_or, Bool.not_eq_false] at hfree
    exact ⟨hnamed, hfree⟩
  · rintro ⟨hnamed, hstores, hfree⟩
    replace hfree : ¬(env.stores context = false ∨ Hindered env db trans) := by
      simpa [hstores] using hfree
    rw [← hblocked, ← decided_eq_none_iff context hdb hrequest (admits_of_admin hactive hadmin)
      hnamed] at hfree
    obtain ⟨db', hdecided⟩ := Option.ne_none_iff_exists'.mp hfree
    have hafter := wellFormed_decided hdb hdecided
    -- the decision reads the request and its one open execution
    obtain ⟨status, haccepted, hrouted⟩ := accepted_of_active hdb hrequest hactive hdecided
    obtain ⟨hcloses, harrives⟩ := arrives_routed hdb hafter hrequest hexec hactive
      haccepted.status_stored hsource hsole hunconditional hrouted
    have hperform :
        (Call.processStep env request.id user trans.outcome context).perform db = db' := by
      rw [perform_processStep, hdecided, Option.getD_some]
    exact {
      commits := by rw [accepted_processStep, hdecided, Option.isSome_some]
      closes := hperform.symm ▸ hcloses
      arrives := hperform.symm ▸ harrives }

/-- An administrator can take the one unconditional transition for an outcome exactly
when the outcome names a status and the context can be stored; otherwise only what the
decision depends on can hinder it. -/
theorem transition_taken_iff (env : Env) (hreachable : Reachable db)
    (hrequest : request ∈ db.workflowRequests) (hopen : exec ∈ db.openExecutions request.id)
    (hsource : trans.fromStepId = exec.stepId) (hsole : Sole db trans)
    (hunconditional : trans.Unconditional) (hadmin : isAdmin user = true)
    (context : Option Dict) :
    TakesTransition env db request exec user context trans ↔
      (StepStatus.ofValue? trans.outcome).isSome ∧ env.stores context = true ∧
        ¬Hindered env db trans :=
  takesTransition_iff_of_wellFormed hreachable.wellFormed hrequest hopen hsource hsole
    hunconditional hadmin

/-! ### An outcome of one's own -/

/-- Two reviews, of which the first leads to the second by some outcome. -/
def reviewsBy (outcome : String) : WorkflowCreate :=
  Sample.twoReviews [⟨1, some 2, outcome, none⟩]

/-- A request at the first of the reviews. -/
def atFirstReview (outcome : String) : Database :=
  runCalls Database.empty (Sample.opening (reviewsBy outcome) [])

/-- The way out of the first review. -/
def reviewTransition (outcome : String) : StepTransition := ⟨3, 1, some 2, none, outcome⟩

/-- The request at the first of the reviews. -/
def firstReviewOf : WorkflowRequest :=
  startedRequest (.calm Sample.noon) 0 0 [] (WorkflowService.stepRow 0 Sample.firstReview 1) 4

theorem firstReview_open :
    ∃ exec ∈ (atFirstReview "APPROVED").openExecutions 4, exec.stepId = 1 := by
  decide +kernel

theorem transition_taken_iff_approved :
    ∃ exec ∈ (atFirstReview "APPROVED").openExecutions 4,
      (TakesTransition (.calm Sample.noon) (atFirstReview "APPROVED") firstReviewOf exec
          Sample.admin none (reviewTransition "APPROVED") ↔
        (StepStatus.ofValue? "APPROVED").isSome ∧ (Env.calm Sample.noon).stores none = true ∧
          ¬Hindered (.calm Sample.noon) (atFirstReview "APPROVED")
            (reviewTransition "APPROVED")) := by
  obtain ⟨exec, hopen, hstep⟩ := firstReview_open
  exact ⟨exec, hopen, transition_taken_iff (.calm Sample.noon)
    ⟨Sample.opening (reviewsBy "APPROVED") [], rfl⟩ (List.mem_singleton_self firstReviewOf) hopen
    hstep.symm (show Sole _ (reviewTransition "APPROVED") from rfl) rfl (by decide) none⟩

/-- A transition for the outcome DONE is stored, and no decision can take it. -/
theorem transition_not_taken :
    ¬∀ env db, Reachable db → ∀ request ∈ db.workflowRequests,
      ∀ exec ∈ db.openExecutions request.id, ∀ trans, trans.fromStepId = exec.stepId →
        Sole db trans → trans.Unconditional → ∀ user, isAdmin user = true → ∀ context,
          ¬Hindered env db trans → TakesTransition env db request exec user context trans := by
  intro htaken
  obtain ⟨exec, hopen, hstep⟩ :
      ∃ exec ∈ (atFirstReview "DONE").openExecutions 4, exec.stepId = 1 := by
    decide +kernel
  have hfree : ¬Hindered (.calm Sample.noon) (atFirstReview "DONE") (reviewTransition "DONE") := by
    rintro (hdown | hdown | hlate)
    · cases hdown
    · cases hdown
    · have hbeyond : Sample.noon.addHours 24 = none := hlate
      revert hbeyond
      decide
  have hdone := htaken (.calm Sample.noon) (atFirstReview "DONE")
    ⟨Sample.opening (reviewsBy "DONE") [], rfl⟩ firstReviewOf (List.mem_singleton_self _) exec hopen
    (reviewTransition "DONE") hstep.symm rfl rfl Sample.admin (by decide) none
    hfree
  have hcommits := hdone.commits
  revert hcommits
  decide +kernel

end WorkflowPlatform
