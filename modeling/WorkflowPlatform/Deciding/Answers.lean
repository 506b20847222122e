import WorkflowPlatform.Deciding.TaskList
import WorkflowPlatform.Deciding.Vocabulary

/-! # How refusals are answered

The two endpoints answer the same refusal differently. The one that takes an action
calls it a bad request whenever the engine does not let the user decide; the other one
only tells him that he may not, and everything else is an internal error. Where the engine
does let him decide, both answer with an internal error.
-/

namespace WorkflowPlatform

open Python WorkflowEngine

variable {env : Env} {db : Database} {requestId : Uuid} {user : User} {outcome : String}
  {context : Option Dict}

/-- The engine lets the user decide on the request. -/
def LetsDecide (env : Env) (db : Database) (requestId : Uuid) (user : User) : Prop :=
  ∃ request ∈ db.workflowRequests, request.id = requestId ∧ Admits env db request user

/-- The request has an open execution, and the access check raises an error. -/
def TurnsAway (env : Env) (db : Database) (requestId : Uuid) (user : User) : Prop :=
  ∃ request ∈ db.workflowRequests, request.id = requestId ∧ ∃ exec,
    openExecution env.executionOrder db request.id request.currentStepId = some exec ∧
      rbacError db user exec ≠ none

/-! ## The class of a refusal -/

/-- The access check denies a permission or does not raise. -/
theorem errorClass_rbacError (hdb : WellFormed db) {request : WorkflowRequest}
    {decided : List RequestStep} {exec : RequestStep} (hactive : Active db request decided exec)
    {error : EngineError} (hrbac : rbacError db user exec = some error) :
    error.errorClass = .permissionDeniedError := by
  obtain ⟨stepDef, hstep⟩ := step?_of_active hdb hactive
  rw [rbacError, Option.ite_none_left_eq_some, hstep] at hrbac
  obtain ⟨-, hmissing⟩ := hrbac
  simp only [missing] at hmissing
  split at hmissing
  · cases hmissing
    rfl
  · split at hmissing
    · cases hmissing
      rfl
    · cases hmissing

/-- What stops a permitted decision has no class of its own. -/
theorem errorClass_routeError {request : WorkflowRequest} (hstatus : request.status = .inProgress)
    (next : Option WorkflowStep) :
    (routeError env request outcome next).errorClass = .other := by
  cases next with
  | some nextStep =>
      rw [routeError]
      split <;> rfl
  | none =>
      have hvalid : isValidTransition request.status (verdictOf outcome) = true := by
        rw [hstatus]
        exact verdictOf_follows outcome
      rw [routeError, if_pos hvalid]
      rfl

/-- The request and its open execution are the ones that are read. -/
theorem exists_open_iff (hdb : WellFormed db) {property : RequestStep → Prop} :
    (∃ request ∈ db.workflowRequests, request.id = requestId ∧ ∃ exec,
        openExecution env.executionOrder db request.id request.currentStepId = some exec ∧
          property exec) ↔
      ∃ request exec, db.request? requestId = some request ∧
        openExecution env.executionOrder db requestId request.currentStepId = some exec ∧
          property exec := by
  constructor
  · intro hfound
    obtain ⟨request, hrequest, rfl, exec, hopen, hexec⟩ := hfound
    exact ⟨request, exec, hdb.request?_eq_some_iff.mpr ⟨hrequest, rfl⟩, hopen, hexec⟩
  · intro hread
    obtain ⟨request, exec, hread, hopen, hexec⟩ := hread
    obtain ⟨hrequest, rfl⟩ := hdb.request?_eq_some_iff.mp hread
    exact ⟨request, hrequest, rfl, exec, hopen, hexec⟩

/-- The class of the error tells whether the engine lets the user decide. -/
theorem errorClass_decisionError (hdb : WellFormed db) :
    LetsDecide env db requestId user ∧ ¬TurnsAway env db requestId user ∧
        (decisionError env db requestId user outcome context).errorClass = .other ∨
      ¬LetsDecide env db requestId user ∧ TurnsAway env db requestId user ∧
        (decisionError env db requestId user outcome context).errorClass =
          .permissionDeniedError ∨
      ¬LetsDecide env db requestId user ∧ ¬TurnsAway env db requestId user ∧
        (decisionError env db requestId user outcome context).errorClass =
          .workflowEngineError := by
  rw [LetsDecide, TurnsAway]
  simp only [Admits, exists_open_iff hdb, decisionError]
  -- along the reads of the decision: what it does not find has a class of its own
  cases hread : db.request? requestId with
  | none => exact .inr (.inr ⟨by simp, by simp, rfl⟩)
  | some request =>
      cases hopen : openExecution env.executionOrder db requestId request.currentStepId with
      | none => exact .inr (.inr ⟨by simp [hopen], by simp [hopen], by simp [hopen]; rfl⟩)
      | some exec =>
          obtain ⟨-, -, decided, hactive⟩ := hdb.active_of_openExecution hread hopen
          simp only [hopen, refusalOf]
          cases hrbac : rbacError db user exec with
          | none =>
              left
              exact ⟨by simp [hopen, hrbac], by simp [hopen, hrbac],
                errorClass_routeError hactive.status_eq _⟩
          | some error =>
              right
              left
              exact ⟨by simp [hopen, hrbac], by simp [hopen, hrbac],
                errorClass_rbacError hdb hactive hrbac⟩

/-! ## The two answers -/

/-- A decision by outcome that raises has the error of the decision. -/
theorem decisionError_of_result {error : EngineError}
    (hresult : (Tx.perform (Endpoint.processRequestStep env requestId user outcome context)
      db).result = .error error) :
    error = decisionError env db requestId user outcome context := by
  have hperform := perform_processRequestStep env db requestId user outcome context
  cases hdecided : decided env db requestId user outcome context with
  | none =>
      rw [hdecided] at hperform
      rw [hperform] at hresult
      exact (Except.error.inj hresult).symm
  | some db' =>
      rw [hdecided] at hperform
      obtain ⟨value, hperform⟩ := hperform
      rw [hperform] at hresult
      cases hresult

/-- What an action says: nothing, nothing that can be put in upper case, or an outcome. -/
theorem outcomeOf_cases (action : Json) :
    action.truthy = false ∧ Endpoint.outcomeOf action = .error .actionRequired ∨
      action.truthy = true ∧ (∀ text, action ≠ .str text) ∧
        Endpoint.outcomeOf action = .error .attributeError ∨
      ∃ text, action.truthy = true ∧ action = .str text ∧
        Endpoint.outcomeOf action = .ok (upper text) := by
  unfold Endpoint.outcomeOf
  cases htruthy : action.truthy with
  | false => exact .inl ⟨rfl, rfl⟩
  | true =>
      right
      cases action with
      | str text => exact .inr ⟨text, rfl, rfl, rfl⟩
      | _ => exact .inl ⟨rfl, fun text heq => Json.noConfusion heq, rfl⟩

/-- A decision by an action that says an outcome is the one by that outcome. -/
theorem makeDecision_of_text {payload : Dict} {text : String}
    (houtcome : Endpoint.outcomeOf (Endpoint.payloadGet payload "action") = .ok text) :
    Endpoint.makeDecision env requestId user payload =
      Endpoint.processRequestStep env requestId user text
        (some (Endpoint.decisionContext payload)) := by
  rw [Endpoint.makeDecision, houtcome]

/-- A decision by action is answered as a bad request where there is no action, or where
the engine does not let the user decide. -/
theorem decisionStatus_iff (hdb : WellFormed db) {payload : Dict} {error : EngineError}
    (hresult : (Tx.perform (Endpoint.makeDecision env requestId user payload) db).result =
      .error error) :
    (Endpoint.decisionStatus error = 400 ∨ Endpoint.decisionStatus error = 500) ∧
      (Endpoint.decisionStatus error = 400 ↔
        (Endpoint.payloadGet payload "action").truthy = false ∨
          (∃ text, Endpoint.payloadGet payload "action" = .str text) ∧
            ¬LetsDecide env db requestId user) := by
  rcases outcomeOf_cases (Endpoint.payloadGet payload "action") with
    ⟨hempty, houtcome⟩ | ⟨hgiven, hother, houtcome⟩ | ⟨text, hgiven, htext, houtcome⟩
  · rw [Endpoint.makeDecision, houtcome] at hresult
    cases hresult
    exact ⟨.inl rfl, iff_of_true rfl (.inl hempty)⟩
  · rw [Endpoint.makeDecision, houtcome] at hresult
    cases hresult
    refine ⟨.inr rfl, iff_of_false (by decide) ?_⟩
    rw [hgiven]
    simpa using fun text heq => absurd heq (hother text)
  · rw [makeDecision_of_text houtcome] at hresult
    have herror := decisionError_of_result hresult
    have hclass := @errorClass_decisionError env _ requestId user (upper text)
      (some (Endpoint.decisionContext payload)) hdb
    rw [← herror] at hclass
    rw [hgiven, htext, Endpoint.decisionStatus]
    rcases hclass with ⟨hlets, -, hclass⟩ | ⟨hlets, -, hclass⟩ | ⟨hlets, -, hclass⟩
    · simp [hclass, hlets]
    · simp [hclass, hlets]
    · simp [hclass, hlets]

/-- A decision by outcome is answered as forbidden where the access check turns the user
away. -/
theorem handledStatus_iff (hdb : WellFormed db) {error : EngineError}
    (hresult : (Tx.perform (Endpoint.processRequestStep env requestId user outcome context)
      db).result = .error error) :
    (Endpoint.handledStatus error = 403 ∨ Endpoint.handledStatus error = 500) ∧
      (Endpoint.handledStatus error = 403 ↔ TurnsAway env db requestId user) := by
  have hclass := @errorClass_decisionError env _ requestId user outcome context hdb
  rw [← decisionError_of_result hresult] at hclass
  rw [Endpoint.handledStatus]
  rcases hclass with ⟨-, hturns, hclass⟩ | ⟨-, hturns, hclass⟩ | ⟨-, hturns, hclass⟩
  · simp [hclass, hturns]
  · simp [hclass, hturns]
  · simp [hclass, hturns]

/-- The client's own actions are refused where the engine lets the user decide. -/
theorem result_of_verb {payload : Dict} {action verb : String} (hverb : (verb, outcome) ∈ verbs)
    (haction : Endpoint.payloadGet payload "action" = .str action) (hupper : upper action = verb) :
    ∃ error, (Tx.perform (Endpoint.makeDecision env requestId user payload) db).result =
      .error error := by
  rcases outcomeOf_cases (Endpoint.payloadGet payload "action") with
    ⟨-, houtcome⟩ | ⟨-, -, houtcome⟩ | ⟨text, -, htext, houtcome⟩
  · exact ⟨.actionRequired, by rw [Endpoint.makeDecision, houtcome]; rfl⟩
  · exact ⟨.attributeError, by rw [Endpoint.makeDecision, houtcome]; rfl⟩
  · have hsame : upper text = verb := Json.str.inj (haction.symm.trans htext) ▸ hupper
    have hperform := perform_processRequestStep env db requestId user (upper text)
      (some (Endpoint.decisionContext payload))
    rw [hsame, decided_eq_none_of_unknown (verb_unknown hverb).1] at hperform
    rw [makeDecision_of_text houtcome, hsame, hperform]
    exact ⟨_, rfl⟩

/-- In every reachable state, a refused decision by action is answered as a bad request if
and only if there is no action or the engine does not let the user decide, and a refused
decision by outcome as a forbidden one if and only if the access check turns the user away;
every other refusal is an internal error. So are the client's own actions where the engine
lets the user decide. -/
theorem decision_answers_iff (hreachable : Reachable db) (env : Env) (requestId : Uuid)
    (user : User) :
    (∀ payload error,
        (Tx.perform (Endpoint.makeDecision env requestId user payload) db).result =
          .error error →
        (Endpoint.decisionStatus error = 400 ∨ Endpoint.decisionStatus error = 500) ∧
          (Endpoint.decisionStatus error = 400 ↔
            (Endpoint.payloadGet payload "action").truthy = false ∨
              (∃ text, Endpoint.payloadGet payload "action" = .str text) ∧
                ¬LetsDecide env db requestId user)) ∧
      (∀ outcome context error,
        (Tx.perform (Endpoint.processRequestStep env requestId user outcome context) db).result =
          .error error →
        (Endpoint.handledStatus error = 403 ∨ Endpoint.handledStatus error = 500) ∧
          (Endpoint.handledStatus error = 403 ↔ TurnsAway env db requestId user)) ∧
      ∀ payload action verb outcome, (verb, outcome) ∈ verbs →
        Endpoint.payloadGet payload "action" = .str action → upper action = verb →
          LetsDecide env db requestId user →
            ∃ error, (Tx.perform (Endpoint.makeDecision env requestId user payload) db).result =
              .error error ∧ Endpoint.decisionStatus error = 500 := by
  have hdb := hreachable.wellFormed
  refine ⟨fun payload error hresult => decisionStatus_iff hdb hresult,
    fun outcome context error hresult => handledStatus_iff hdb hresult, ?_⟩
  intro payload action verb outcome hverb haction hupper hlets
  obtain ⟨error, hresult⟩ := @result_of_verb env db requestId user _ _ _ _ hverb haction hupper
  obtain ⟨hstatus, hbad⟩ := decisionStatus_iff hdb hresult
  refine ⟨error, hresult, hstatus.resolve_left fun hcode => ?_⟩
  rcases hbad.mp hcode with hempty | ⟨-, hdenied⟩
  · rw [haction] at hempty
    -- the empty text says no outcome
    obtain rfl : action = "" := by simpa [Json.truthy] using hempty
    rw [← hupper, show upper "" = "" by decide] at hverb
    simp [verbs] at hverb
  · exact hdenied hlets

/-- An administrator approves a request under review. -/
theorem decision_answers_iff_approve :
    ∃ error, (Tx.perform (Endpoint.makeDecision (.calm Sample.noon) reviewedRequest.id Sample.admin
        approvePayload) underReview).result = .error error ∧
      Endpoint.decisionStatus error = 500 := by
  have hanswers := decision_answers_iff ⟨Sample.opening Sample.approvals [], rfl⟩
    (.calm Sample.noon) reviewedRequest.id Sample.admin
  apply hanswers.2.2 approvePayload "approve" "APPROVE" "APPROVED"
  · decide
  · rfl
  · decide
  · exact ⟨reviewedRequest, List.mem_singleton_self _, rfl, by decide +kernel⟩

end WorkflowPlatform
